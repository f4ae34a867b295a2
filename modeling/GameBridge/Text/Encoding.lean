/-!
# Text as bytes

What is stored in files and sent on connections is UTF-8. Bytes are kept as lists here, so that
readers and writers can be plain recursions over them.
-/

namespace GameBridge.Text

/-- The UTF-8 bytes of one character. -/
def charBytes (c : Char) : List UInt8 := String.utf8EncodeChar c

/-- The UTF-8 bytes of a text. -/
def bytes (s : String) : List UInt8 := s.toUTF8.data.toList

/-- The text that bytes encode, if they are well-formed UTF-8. -/
def ofBytes? (b : List UInt8) : Option String := String.fromUTF8? ⟨b.toArray⟩

theorem ofBytes?_bytes (s : String) : ofBytes? (bytes s) = some s := by
  have h : (⟨s.toByteArray.data.toList.toArray⟩ : ByteArray) = s.toByteArray := by simp
  have hv : ByteArray.IsValidUTF8 ⟨s.toByteArray.data.toList.toArray⟩ := by
    rw [h]
    exact s.isValidUTF8
  show String.fromUTF8? ⟨s.toByteArray.data.toList.toArray⟩ = some s
  rw [String.fromUTF8?, dif_pos hv]
  refine congrArg some ?_
  exact String.toByteArray_inj.mp h

/-- The bytes of a text are those of its characters, one after the other. -/
theorem bytes_ofList (cs : List Char) : bytes (String.ofList cs) = cs.flatMap charBytes := by
  show (String.ofList cs).toByteArray.data.toList = _
  rw [String.toByteArray_ofList, List.utf8Encode, List.toList_data_toByteArray]
  rfl

end GameBridge.Text
