import Mathlib.Data.List.Basic

/-!
# `Lib.Utf8` — text as bytes

`encode` is `text.encode("utf-8")` and `decode` the strict `bytes.decode("utf-8")`, `none` where it raises. Decoding
inverts encoding (`decode_encode`), so distinct texts have distinct bytes (`encode_injective`).
-/

namespace Lib
namespace Utf8

def encode (text : String) : List UInt8 := text.toUTF8.toList

def decode (bytes : List UInt8) : Option String := String.fromUTF8? ⟨bytes.toArray⟩

/-- The loop behind `ByteArray.toList` collects the bytes from its position on. -/
theorem toList_loop (bytes : ByteArray) (i : Nat) (acc : List UInt8) :
    ByteArray.toList.loop bytes i acc = acc.reverse ++ bytes.data.toList.drop i := by
  fun_induction ByteArray.toList.loop bytes i acc with
  | case1 i acc hlt ih =>
      have hlt' : i < bytes.data.toList.length := by simpa using hlt
      have hget : bytes.get! i = bytes.data.toList[i] := by
        show bytes.data[i]! = _
        rw [getElem!_pos bytes.data i (by simpa using hlt'), Array.getElem_toList]
      rw [ih, List.reverse_cons, List.append_assoc, List.singleton_append, hget,
        ← List.drop_eq_getElem_cons hlt']
  | case2 i acc hge =>
      have hge' : bytes.data.toList.length ≤ i := by simpa using Nat.le_of_not_lt hge
      rw [List.drop_eq_nil_of_le hge', List.append_nil]

theorem toList_eq (bytes : ByteArray) : bytes.toList = bytes.data.toList := by
  rw [ByteArray.toList, toList_loop]
  rfl

theorem decode_encode (text : String) : decode (encode text) = some text := by
  have hbytes : (⟨(encode text).toArray⟩ : ByteArray) = text.toByteArray := by
    rw [encode, toList_eq]
    rfl
  rw [decode, hbytes, String.fromUTF8?, dif_pos text.isValidUTF8]
  rfl

theorem encode_injective : Function.Injective encode := by
  intro s t h
  have hs := decode_encode s
  rw [h, decode_encode] at hs
  exact (Option.some.inj hs).symm

end Utf8
end Lib
