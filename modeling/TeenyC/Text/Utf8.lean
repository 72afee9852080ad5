/-!
# UTF-8

The bytes of a text, and the text of bytes.
-/

namespace TeenyC

/-- Data that need not be text. -/
abbrev Bytes := Array UInt8

/-- The UTF-8 encoding of a text. -/
def utf8 (text : String) : List UInt8 :=
  text.toList.flatMap String.utf8EncodeChar

@[simp]
theorem utf8_append (first second : String) :
    utf8 (first ++ second) = utf8 first ++ utf8 second := by
  simp [utf8, String.toList_append]

namespace Bytes

/-- The bytes of a text. -/
def ofString (text : String) : Bytes :=
  (utf8 text).toArray

/-- The text that bytes encode, if they encode one. -/
def text? (bytes : Bytes) : Option String :=
  String.fromUTF8? ⟨bytes⟩

private theorem mk_ofString (text : String) :
    ByteArray.mk (ofString text) = text.toByteArray := by
  apply ByteArray.ext
  conv => rhs; rw [← String.ofList_toList (s := text)]
  rw [String.toByteArray_ofList, List.utf8Encode]
  simp [ofString, utf8]

/-- The bytes of a text encode that text. -/
@[simp]
theorem text?_ofString (text : String) : (ofString text).text? = some text := by
  unfold text? String.fromUTF8?
  rw [mk_ofString, dif_pos text.isValidUTF8]
  rfl

end Bytes

end TeenyC
