import Mathlib
import TeenyC.Compile.Output

/-!
# Delivering C text to a sink

A sink may take bytes in small pieces, and may fill up in the middle of one.  As long as it
takes at least one byte while it has room, none of this shows in the end: it holds all the
bytes that were to be written, or as many of them as fitted.

So writing can be split anywhere.  The three sections of a C unit, written one after the
other, reach a sink as the flattened text does, and a compiled program as the C text of its
artifact.
-/

namespace TeenyC

namespace Sink

/-- The sink takes something whenever it has room. -/
def Moves (sink : Sink) : Prop :=
  ∀ chunk ∈ sink.chunk, 0 < chunk

/-- The sink has room for all of the bytes. -/
def Fits (sink : Sink) (bytes : List UInt8) : Prop :=
  ∀ room ∈ sink.room, bytes.length ≤ room

/-- The sink when it has taken bytes for which it has room. -/
def store (sink : Sink) (bytes : List UInt8) : Sink :=
  { sink with
    written := sink.written ++ bytes
    room := sink.room.map (· - bytes.length) }

/-- The fault of a write to a full sink. -/
def fullFault (sink : Sink) : SinkFault :=
  if sink.silentWhenFull then .nothingTaken else .full

variable {sink : Sink} {bytes first second : List UInt8} {room : Nat}

@[simp]
theorem store_nil (sink : Sink) : sink.store [] = sink := by
  rcases sink with ⟨room, chunk, silentWhenFull, flushFails, written, flushes⟩
  cases room <;> simp [store]

@[simp]
theorem store_store (sink : Sink) (first second : List UInt8) :
    (sink.store first).store second = sink.store (first ++ second) := by
  have joined : sink.written ++ first ++ second = sink.written ++ (first ++ second) := by
    apply Array.ext'
    simp
  cases isRoom : sink.room <;> simp [store, isRoom, joined, Nat.sub_sub]

@[simp]
theorem room_store (sink : Sink) (bytes : List UInt8) :
    (sink.store bytes).room = sink.room.map (· - bytes.length) := rfl

@[simp]
theorem fullFault_store (sink : Sink) (bytes : List UInt8) :
    (sink.store bytes).fullFault = sink.fullFault := rfl

theorem Moves.store (moves : sink.Moves) (bytes : List UInt8) : (sink.store bytes).Moves := moves

theorem not_fits_iff : ¬ sink.Fits bytes ↔ ∃ room, sink.room = some room ∧ room < bytes.length := by
  simp [Fits, Option.mem_def]

theorem fits_append_iff (fits : sink.Fits first) :
    sink.Fits (first ++ second) ↔ (sink.store first).Fits second := by
  unfold Fits
  rw [room_store]
  cases isRoom : sink.room with
  | none => simp
  | some room =>
      have within : first.length ≤ room := fits room isRoom
      simp only [Option.mem_def, Option.some.injEq, Option.map_some, forall_eq',
        List.length_append]
      omega

/-! ## One write -/

theorem piece_begins (sink : Sink) (bytes : List UInt8) : sink.piece bytes <+: bytes := by
  unfold piece
  split
  · exact List.take_prefix _ bytes
  · exact List.prefix_refl bytes

theorem fits_piece (sink : Sink) (bytes : List UInt8) : sink.Fits (sink.piece bytes) := by
  intro room isRoom
  have limited : ∃ limit, sink.limit? = some limit ∧ limit ≤ room := by
    rw [limit?, Option.mem_def.mp isRoom]
    cases sink.chunk with
    | none => exact ⟨room, rfl, Nat.le_refl room⟩
    | some chunk => exact ⟨min chunk room, rfl, Nat.min_le_right chunk room⟩
  obtain ⟨limit, isLimit, within⟩ := limited
  rw [piece, isLimit]
  exact Nat.le_trans (List.length_take_le limit bytes) within

/-- A sink with room does not take nothing. -/
theorem piece_ne_nil (moves : sink.Moves) (notNil : bytes ≠ []) (notFull : sink.room ≠ some 0) :
    sink.piece bytes ≠ [] := by
  have positive : ∀ limit, sink.limit? = some limit → limit ≠ 0 := by
    intro limit isLimit
    rw [limit?] at isLimit
    split at isLimit
    · next chunk room isChunk isRoom =>
        have moving := moves chunk isChunk
        have roomLeft : room ≠ 0 := fun isZero => notFull (isZero ▸ isRoom)
        cases isLimit
        omega
    · next chunk isChunk _ =>
        have moving := moves chunk isChunk
        cases isLimit
        omega
    · intro isZero
      exact notFull (isZero ▸ isLimit)
  unfold piece
  split
  · next limit isLimit => simp [notNil, positive limit isLimit]
  · exact notNil

theorem offer_eq (bytes : List UInt8) (sink : Sink) :
    offer bytes sink =
      if sink.room = some 0 ∧ sink.silentWhenFull = false then .error .full sink
      else .ok (sink.piece bytes).length (sink.store (sink.piece bytes)) := rfl

@[simp]
theorem writeAll_nil (sink : Sink) : writeAll [] sink = .ok () sink := by
  simp [writeAll]

/-- A full sink takes nothing. -/
theorem writeAll_of_full (notNil : bytes ≠ []) (full : sink.room = some 0) :
    writeAll bytes sink = .error sink.fullFault sink := by
  have nothing : sink.piece bytes = [] :=
    List.length_eq_zero_iff.mp (Nat.le_zero.mp (fits_piece sink bytes 0 full))
  rw [writeAll, dif_pos notNil, offer_eq, nothing, fullFault, full]
  cases sink.silentWhenFull <;> simp

/-- A sink with room takes a beginning of the bytes, and is then asked to take the rest. -/
theorem writeAll_of_room (moves : sink.Moves) (notNil : bytes ≠ [])
    (notFull : sink.room ≠ some 0) :
    ∃ taken rest, bytes = taken ++ rest ∧ taken ≠ [] ∧ sink.Fits taken ∧
      writeAll bytes sink = writeAll rest (sink.store taken) := by
  obtain ⟨rest, split⟩ := piece_begins sink bytes
  have some_taken := piece_ne_nil moves notNil notFull
  have cut := List.prefix_iff_eq_append.mp (piece_begins sink bytes)
  have left : bytes.drop (sink.piece bytes).length = rest :=
    List.append_cancel_left (cut.trans split.symm)
  refine ⟨sink.piece bytes, rest, split.symm, some_taken, fits_piece sink bytes, ?_⟩
  obtain ⟨others, length_eq⟩ :=
    Nat.exists_eq_add_one_of_ne_zero (mt List.length_eq_zero_iff.mp some_taken)
  rw [writeAll, dif_pos notNil, offer_eq, if_neg fun isFull => notFull isFull.1, ← left, length_eq]

/-! ## All bytes -/

/-- A sink with room for all of the bytes takes them all, in however many pieces. -/
theorem writeAll_of_fits (moves : sink.Moves) (fits : sink.Fits bytes) :
    writeAll bytes sink = .ok () (sink.store bytes) := by
  induction size_eq : bytes.length using Nat.strongRecOn generalizing bytes sink with
  | _ size inductionHypothesis =>
      by_cases isNil : bytes = []
      · rw [isNil, writeAll_nil, store_nil]
      · have notFull : sink.room ≠ some 0 := by
          intro full
          exact isNil (List.length_eq_zero_iff.mp (Nat.le_zero.mp (fits 0 full)))
        obtain ⟨taken, rest, rfl, moving, takenFits, step⟩ :=
          writeAll_of_room moves isNil notFull
        have fewer : rest.length < size := by
          have := List.length_pos_iff.mpr moving
          rw [← size_eq, List.length_append]
          omega
        have restFits := (fits_append_iff takenFits).mp fits
        rw [step, inductionHypothesis _ fewer (moves.store taken) restFits rfl, store_store]

/-- A sink without room for all of the bytes takes as many as fit, and fails. -/
theorem writeAll_of_overflow (moves : sink.Moves) (isRoom : sink.room = some room)
    (overflow : room < bytes.length) :
    writeAll bytes sink = .error sink.fullFault (sink.store (bytes.take room)) := by
  induction size_eq : bytes.length using Nat.strongRecOn generalizing bytes sink room with
  | _ size inductionHypothesis =>
      have notNil : bytes ≠ [] := List.length_pos_iff.mp (by omega)
      by_cases full : room = 0
      · rw [full] at isRoom
        rw [writeAll_of_full notNil isRoom, full, List.take_zero, store_nil]
      · have notFull : sink.room ≠ some 0 := by
          rw [isRoom]
          exact fun isFull => full (Option.some.inj isFull)
        obtain ⟨taken, rest, rfl, moving, takenFits, step⟩ :=
          writeAll_of_room moves notNil notFull
        have within : taken.length ≤ room := takenFits room isRoom
        have positive := List.length_pos_iff.mpr moving
        rw [List.length_append] at overflow size_eq
        have restRoom : (sink.store taken).room = some (room - taken.length) := by
          rw [room_store, isRoom, Option.map_some]
        rw [step, inductionHypothesis rest.length (by omega) (moves.store taken) restRoom
            (by omega) rfl,
          fullFault_store, store_store, List.take_append, List.take_of_length_le within]

/-- A task after the writing of bytes sees of the writing only what it does to its sink. -/
theorem bind_congr_at {first second : EStateM SinkFault Sink Unit}
    (same : first sink = second sink) (next : Unit → EStateM SinkFault Sink Unit) :
    (first >>= next) sink = (second >>= next) sink := by
  change EStateM.bind first next sink = EStateM.bind second next sink
  rw [EStateM.bind, EStateM.bind, same]

/-- Bytes can be written in two parts. -/
theorem writeAll_append (moves : sink.Moves) (first second : List UInt8) :
    writeAll (first ++ second) sink = (writeAll first >>= fun _ => writeAll second) sink := by
  change _ = EStateM.bind (writeAll first) (fun _ => writeAll second) sink
  rw [EStateM.bind]
  by_cases firstFits : sink.Fits first
  · rw [writeAll_of_fits moves firstFits]
    by_cases fits : (sink.store first).Fits second
    · rw [writeAll_of_fits moves ((fits_append_iff firstFits).mpr fits)]
      simp only [writeAll_of_fits (moves.store first) fits, store_store]
    · obtain ⟨room, isRoom, overflow⟩ := not_fits_iff.mp (mt (fits_append_iff firstFits).mp fits)
      have within : first.length ≤ room := firstFits room isRoom
      have restRoom : (sink.store first).room = some (room - first.length) := by
        rw [room_store, isRoom, Option.map_some]
      rw [writeAll_of_overflow moves isRoom overflow]
      rw [List.length_append] at overflow
      simp only [writeAll_of_overflow (moves.store first) restRoom (by omega : _ < second.length),
        fullFault_store, store_store, List.take_append, List.take_of_length_le within]
  · obtain ⟨room, isRoom, overflow⟩ := not_fits_iff.mp firstFits
    have longer : room < (first ++ second).length := by
      rw [List.length_append]
      omega
    rw [writeAll_of_overflow moves isRoom overflow, writeAll_of_overflow moves isRoom longer,
      List.take_append_of_le_length (Nat.le_of_lt overflow)]

/-! ## Deliveries -/

/-- The result of a delivery of bytes to a sink, whose faults are reported in some way.  If
the sink has room, it holds all bytes and was flushed once, and all is well unless that failed;
otherwise it holds as many as fitted, was not flushed, and the delivery failed. -/
structure Delivers {ε : Type} (report : SinkFault → ε) (sink : Sink) (bytes : List UInt8)
    (result : EStateM.Result ε Sink Unit) : Prop where
  fits : sink.Fits bytes → ∃ after : Sink, after.written = sink.written ++ bytes ∧
    after.flushes = sink.flushes + 1 ∧
    result = if sink.flushFails then .error (report .flush) after else .ok () after
  overflows : ∀ room, sink.room = some room → room < bytes.length →
    ∃ after : Sink, after.written = sink.written ++ bytes.take room ∧
      after.flushes = sink.flushes ∧ result = .error (report sink.fullFault) after

theorem delivers_writeAll_flush (moves : sink.Moves) (bytes : List UInt8) :
    Delivers id sink bytes ((writeAll bytes >>= fun _ => flush) sink) := by
  change Delivers id sink bytes (EStateM.bind (writeAll bytes) (fun _ => flush) sink)
  rw [EStateM.bind]
  refine ⟨?_, ?_⟩
  · intro fits
    rw [writeAll_of_fits moves fits]
    exact ⟨{ sink.store bytes with flushes := sink.flushes + 1 }, rfl, rfl, rfl⟩
  · intro room isRoom overflow
    rw [writeAll_of_overflow moves isRoom overflow]
    exact ⟨sink.store (bytes.take room), rfl, rfl, rfl⟩

/-- The sections of a unit reach a sink as one text. -/
theorem writeTo_eq (moves : sink.Moves) (unit : CUnit) :
    unit.writeTo sink = (writeAll (utf8 unit.flatten) >>= fun _ => flush) sink := by
  have split : writeAll (utf8 unit.flatten) sink =
      ((writeAll (utf8 unit.header) >>= fun _ => writeAll (utf8 unit.functions)) >>=
        fun _ => writeAll (utf8 unit.main)) sink := by
    rw [CUnit.flatten, utf8_append, utf8_append, writeAll_append moves]
    exact bind_congr_at (writeAll_append moves _ _) _
  rw [bind_congr_at split, bind_assoc, bind_assoc]
  rfl

/-- A result whose fault is reported in some way. -/
def reported {ε : Type} (report : SinkFault → ε) :
    EStateM.Result SinkFault Sink Unit → EStateM.Result ε Sink Unit
  | .ok () after => .ok () after
  | .error fault after => .error (report fault) after

theorem Delivers.reported {ε : Type} {result : EStateM.Result SinkFault Sink Unit}
    (delivers : Delivers id sink bytes result) (report : SinkFault → ε) :
    Delivers report sink bytes (reported report result) := by
  refine ⟨?_, ?_⟩
  · intro fits
    obtain ⟨after, written, flushes, rfl⟩ := delivers.fits fits
    refine ⟨after, written, flushes, ?_⟩
    cases sink.flushFails <;> rfl
  · intro room isRoom overflow
    obtain ⟨after, written, flushes, rfl⟩ := delivers.overflows room isRoom overflow
    exact ⟨after, written, flushes, rfl⟩

end Sink

/-- Compiling to a sink is compiling and then delivering the C text: a program that is rejected
leaves the sink as it was, and the C text of any other reaches it as far as it has room.  The
sections of a unit, written one after the other, are delivered like its flattened text. -/
theorem compileTo_delivers {sink : Sink} (moves : sink.Moves) :
    (∀ source error, compile source = .error error →
      compileTo source sink = .error (.rejected error) sink) ∧
    (∀ source artifact, compile source = .ok artifact →
      sink.Delivers OutputError.sink (utf8 artifact.text) (compileTo source sink)) ∧
    (∀ unit : CUnit, sink.Delivers id (utf8 unit.flatten) (unit.writeTo sink)) := by
  have unitDelivers : ∀ unit : CUnit,
      sink.Delivers id (utf8 unit.flatten) (unit.writeTo sink) := by
    intro unit
    rw [Sink.writeTo_eq moves]
    exact Sink.delivers_writeAll_flush moves _
  refine ⟨?_, ?_, unitDelivers⟩
  · intro source error rejected
    unfold compile at rejected
    unfold compileTo
    split at rejected
    · cases rejected
    · next isRun =>
        cases rejected
        rw [isRun]
  · intro source artifact compiles
    unfold compile at compiles
    unfold compileTo
    split at compiles
    · next summary unit isRun =>
        cases compiles
        rw [isRun]
        exact (unitDelivers unit).reported OutputError.sink
    · cases compiles

/-- A sink that takes three bytes at once, and is full in the middle of a function. -/
theorem compileTo_delivers_half_a_function :
    Sink.Moves { room := some 25, chunk := some 3, silentWhenFull := true } ∧
    ∃ after : Sink, after.written.toList = utf8 "#include <stdio.h>\nvoid f" ∧ after.flushes = 0 ∧
      compileTo "fn f\nend" { room := some 25, chunk := some 3, silentWhenFull := true } =
        .error (.sink .nothingTaken) after := by
  have moves : Sink.Moves { room := some 25, chunk := some 3, silentWhenFull := true } := by
    intro chunk isChunk
    cases isChunk
    decide
  have compiles : compile "fn f\nend" =
      .ok ⟨"#include <stdio.h>\nvoid f() \x7b\n\x7d\nint main() \x7b\nreturn 0;\n\x7d\n",
        ⟨["f"], []⟩⟩ := by
    cbv
  obtain ⟨after, written, flushes, result⟩ :=
    ((compileTo_delivers moves).2.1 _ _ compiles).overflows 25 rfl (by decide +kernel)
  refine ⟨moves, after, ?_, flushes, result⟩
  rw [written]
  decide +kernel

end TeenyC
