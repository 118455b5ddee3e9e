import Mathlib.Data.List.Basic

/-! Texts as UTF-8 bytes and back. -/
namespace Utf8

/-- `.encode()` -/
def bytes (text : List Char) : List UInt8 := (String.ofList text).toUTF8.data.toList

/-- `.decode()` -/
def text? (bytes : List UInt8) : Option (List Char) :=
  (String.fromUTF8? ⟨bytes.toArray⟩).map (·.toList)

theorem text?_bytes (text : List Char) : text? (bytes text) = some text := by
  have same : (⟨(bytes text).toArray⟩ : ByteArray) = (String.ofList text).toUTF8 := by simp [bytes]
  have read : String.fromUTF8? (String.ofList text).toUTF8 = some (String.ofList text) :=
    dif_pos (String.ofList text).isValidUTF8
  rw [text?,same,read,Option.map_some,String.toList_ofList]

end Utf8
