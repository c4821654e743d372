import AnalyzerConfig.Octets
import Mathlib.Data.List.Basic

namespace AnalyzerConfig.Octets

variable {s t : String} {cs ds : List Char}

theorem length_bytes_text (s : String) : (text s).bytes.length = s.utf8ByteSize := by
  rw [← String.size_toByteArray, ← String.utf8Encode_toList, List.utf8Encode,
    List.size_toByteArray]
  rfl

theorem utf8EncodeChar_append_lt {c d : Char} (h : c < d) (as bs : List UInt8) :
    String.utf8EncodeChar c ++ as < String.utf8EncodeChar d ++ bs := by
  have hlt : c.val.toNat < d.val.toNat := h
  have hd : d.val.toNat < 0x110000 := by
    rcases d.valid with hd | ⟨-, hd⟩ <;> omega
  have hdigits (n : Nat) : n / 64 / 64 = n / 4096 ∧ n / 4096 / 64 = n / 262144 := by omega
  have hcdigits := hdigits c.val.toNat
  have hddigits := hdigits d.val.toNat
  simp only [String.utf8EncodeChar]
  -- one case for each pair of lengths; the byte that differs first is found by its digits
  repeat' split
  all_goals
    simp only [List.cons_append, List.nil_append, List.cons_lt_cons_iff, UInt8.lt_iff_toNat_lt,
      ← UInt8.toNat_inj, UInt8.toNat_ofNat', Nat.reducePow]
    simp (disch := omega) only [Nat.mod_eq_of_lt, Nat.add_lt_add_iff_right,
      Nat.add_right_cancel_iff]
    omega

theorem flatMap_utf8EncodeChar_lt (h : cs < ds) :
    cs.flatMap String.utf8EncodeChar < ds.flatMap String.utf8EncodeChar := by
  induction cs generalizing ds with
  | nil =>
    cases ds with
    | nil => exact absurd h (List.not_lt_nil _)
    | cons d ds =>
      have hne : String.utf8EncodeChar d ++ ds.flatMap String.utf8EncodeChar ≠ [] := by simp
      obtain ⟨b, bs, hbs⟩ := List.exists_cons_of_ne_nil hne
      rw [List.flatMap_nil, List.flatMap_cons, hbs]
      exact List.nil_lt_cons b bs
  | cons c cs ih =>
    cases ds with
    | nil => exact absurd h (List.not_lt_nil _)
    | cons d ds =>
      rw [List.flatMap_cons, List.flatMap_cons]
      rcases List.cons_lt_cons_iff.1 h with hcd | ⟨rfl, hlt⟩
      · exact utf8EncodeChar_append_lt hcd _ _
      · exact List.append_left_lt (ih hlt)

/-- The order of texts is that of their bytes. -/
theorem bytes_text_lt (h : s < t) : (text s).bytes < (text t).bytes :=
  flatMap_utf8EncodeChar_lt h

end AnalyzerConfig.Octets
