import BlockIndex.Run.Change

/-! Digests and the mark.  A digest is written in hexadecimal digits, so it never starts like the
mark of a file that is to be looked at again. -/

namespace BlockIndex

namespace Text

theorem hexDigit_ne_r : ∀ d, d < 16 → hexDigit d ≠ 'r' := by decide

theorem not_mem_hexDigits (width n : Nat) : 'r' ∉ hexDigits width n := by
  induction width generalizing n with
  | zero => simp [hexDigits]
  | succ width ih =>
    simp only [hexDigits, List.mem_append, List.mem_singleton]
    rintro (h | h)
    · exact ih _ h
    · exact hexDigit_ne_r _ (Nat.mod_lt _ (by decide)) h.symm

end Text

theorem Digest.not_mem_md5 (bytes : List UInt8) : 'r' ∉ (Digest.md5 bytes).toList := by
  unfold Digest.md5
  simp only [String.toList_ofList, List.mem_flatMap, not_exists, not_and]
  exact fun b _ => Text.not_mem_hexDigits 2 b.toNat

namespace Run

/-- A digest has no mark. -/
theorem isMarked_md5 (bytes : List UInt8) : isMarked (Digest.md5 bytes) = false := by
  have h := Digest.not_mem_md5 bytes
  unfold isMarked Text.startsWith
  cases hd : (Digest.md5 bytes).toList with
  | nil => rfl
  | cons c cs =>
    have hc : c ≠ 'r' := fun e => h (by simp [hd, e])
    simp [retryMark, List.isPrefixOf, hc.symm]

theorem isMarked_append (text : String) : isMarked (retryMark ++ text) = true := by
  simp [isMarked, Text.startsWith, String.toList_append]

/-- What has the mark is not a digest. -/
theorem md5_ne_append (bytes : List UInt8) (text : String) :
    Digest.md5 bytes ≠ retryMark ++ text := by
  intro h
  have hm := isMarked_md5 bytes
  rw [h, isMarked_append] at hm
  cases hm

theorem append_retryMark_inj {a b : String} (h : retryMark ++ a = retryMark ++ b) : a = b := by
  simpa [String.ext_iff, String.toList_append] using h

end Run

end BlockIndex
