/-!
# Bytes of text

## Main definitions

* `utf8Bytes`, `textOfBytes?`: a text as bytes, and back.

## Main results

* `textOfBytes?_eq_some_iff`: exactly the bytes of a text are read as that text.
-/

namespace ResourceTable

/-- The bytes of a text in UTF-8. -/
def utf8Bytes (s : String) : List UInt8 := s.toUTF8.data.toList

/-- The text of bytes, if they are UTF-8. -/
def textOfBytes? (bytes : List UInt8) : Option String := String.fromUTF8? ⟨bytes.toArray⟩

@[simp] theorem textOfBytes?_utf8Bytes (s : String) : textOfBytes? (utf8Bytes s) = some s := by
  have h : (⟨(utf8Bytes s).toArray⟩ : ByteArray) = s.toByteArray := by
    rw [utf8Bytes, Array.toArray_toList, String.toUTF8_eq_toByteArray]
  rw [textOfBytes?, h, String.fromUTF8?, dif_pos s.isValidUTF8]
  rfl

theorem utf8Bytes_of_textOfBytes? {bytes : List UInt8} {s : String}
    (h : textOfBytes? bytes = some s) : utf8Bytes s = bytes := by
  unfold textOfBytes? String.fromUTF8? at h
  split at h
  · obtain rfl := Option.some.inj h
    rfl
  · contradiction

theorem textOfBytes?_eq_some_iff {bytes : List UInt8} {s : String} :
    textOfBytes? bytes = some s ↔ utf8Bytes s = bytes :=
  ⟨utf8Bytes_of_textOfBytes?, fun h => h ▸ textOfBytes?_utf8Bytes s⟩

end ResourceTable
