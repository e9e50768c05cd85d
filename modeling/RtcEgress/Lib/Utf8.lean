import Mathlib.Algebra.BigOperators.Group.List.Basic
import Mathlib.Algebra.GroupWithZero.Nat

/-!
# 文字列の UTF-8 のバイト
-/

namespace RtcEgress.Lib

def utf8 (s : String) : List UInt8 := s.toByteArray.data.toList

theorem length_utf8 (s : String) : (utf8 s).length = s.utf8ByteSize := rfl

theorem utf8_eq_flatMap (s : String) : utf8 s = s.toList.flatMap String.utf8EncodeChar := by
  have h : s.toByteArray = s.toList.utf8Encode := by
    rw [← String.toByteArray_ofList, String.ofList_toList]
  simp [utf8, h, List.utf8Encode]

theorem utf8ByteSize_eq_sum (s : String) : s.utf8ByteSize = (s.toList.map Char.utf8Size).sum := by
  rw [← length_utf8, utf8_eq_flatMap, List.length_flatMap]
  simp

end RtcEgress.Lib
