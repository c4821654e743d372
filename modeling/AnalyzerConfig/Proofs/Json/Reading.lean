import AnalyzerConfig.Proofs.Json.Grammar
import AnalyzerConfig.Proofs.Json.PlaceholderKeys

namespace AnalyzerConfig.Json

open Text

theorem number_toDigits (n : Nat) : number 10 (Nat.toDigits 10 n) = n := by
  have h : number 10 (Nat.toDigits 10 n) = Nat.ofDigitChars 10 (Nat.toDigits 10 n) 0 := by
    apply List.foldl_ext
    intro m c hc
    have hd := Nat.isDigit_of_mem_toDigits (by decide) (by decide) hc
    rw [digitValue, if_pos hd, Nat.mul_comm]
  rw [h, Nat.ofDigitChars_ten_toDigits]

theorem head?_toDigits {n : Nat} (h : 0 < n) : (Nat.toDigits 10 n).head? ≠ some '0' := by
  induction n using Nat.strongRecOn with
  | ind n ih =>
    by_cases hn : n < 10
    · have hc : ∀ m < 10, 0 < m → Nat.digitChar m ≠ '0' := by decide
      rw [Nat.toDigits_of_lt_base hn]
      simpa using hc n hn h
    · rw [Nat.toDigits_of_base_le (by decide) (by omega), List.head?_append_of_ne_nil _
        Nat.toDigits_ne_nil]
      exact ih (n / 10) (by omega) (by omega)

theorem digits_toDigits (n : Nat) : Digits (Nat.toDigits 10 n) where
  ne_nil := Nat.toDigits_ne_nil
  isDigit _ hc := Nat.isDigit_of_mem_toDigits (by decide) (by decide) hc
  zero h := by
    rcases Nat.eq_zero_or_pos n with rfl | hn
    · rfl
    · exact absurd h (head?_toDigits hn)

theorem integer_printInt (n : Int) : Integer (printInt n) n := by
  have h := digits_toDigits n.natAbs
  unfold printInt
  split_ifs with hn
  · have hi := Integer.neg h
    rwa [number_toDigits, Int.ofNat_natAbs_of_nonpos (by omega), Int.neg_neg] at hi
  · have hi := Integer.nonneg h
    rwa [number_toDigits, Int.natAbs_of_nonneg (by omega)] at hi

theorem isHexDigit_digitChar : ∀ d < 16,
    isHexDigit (Nat.digitChar d) = true ∧ digitValue (Nat.digitChar d) = d := by decide

theorem fourHex?_fourHex {n : Nat} (h : n < 65536) :
    ∃ a b c d, fourHex n = [a, b, c, d] ∧ fourHex? a b c d = some n := by
  have hd (k : Nat) := isHexDigit_digitChar (k % 16) (Nat.mod_lt _ (by decide))
  refine ⟨_, _, _, _, rfl, ?_⟩
  simp only [fourHex?, List.all_cons, List.all_nil, (hd _).1, Bool.and_true, number,
    List.foldl_cons, List.foldl_nil, (hd _).2, if_true]
  congr 1
  omega

theorem spelled_escapeChar (c : Char) : Spelled (escapeChar c) c := by
  unfold escapeChar
  split_ifs with h₁ h₂ h₃ h₄ h₅ h₆ h₇ h₈
  · subst h₁; exact .short rfl
  · subst h₂; exact .short rfl
  · subst h₃; exact .short rfl
  · subst h₄; exact .short rfl
  · subst h₅; exact .short rfl
  · subst h₆; exact .short rfl
  · subst h₇; exact .short rfl
  · obtain ⟨_, _, _, _, he, hn⟩ := fourHex?_fourHex (n := c.toNat) (by omega)
    have hv : c.toNat.isValidChar := c.valid
    rw [he]
    exact .unit hn (by rw [unit?, if_pos hv, Char.ofNat_toNat])
  · exact .plain (by omega) h₁ h₂

theorem quoted_flatMap (cs : List Char) : Quoted (cs.flatMap escapeChar) cs := by
  induction cs with
  | nil => exact .nil
  | cons c cs ih => exact .cons (spelled_escapeChar c) ih

theorem value_printString (s : String) : Value (printString s) (.str s) := by
  have h := Value.str (quoted_flatMap s.toList)
  rwa [String.ofList_toList] at h

theorem blank_indent (n : Nat) : Blank (indent n) := by
  intro c hc
  rw [indent] at hc
  rw [List.eq_of_mem_replicate hc]
  rfl

theorem blank_newline (n : Nat) : Blank ('\n' :: indent n) := by
  intro c hc
  rcases List.mem_cons.1 hc with rfl | hc
  · rfl
  · exact blank_indent n c hc

theorem blank_nil : Blank [] := fun _ h => by cases h

theorem member_print {a cs b : List Char} {d : Doc} (k : String) (ha : Blank a)
    (hd : Value cs d) (hb : Blank b) :
    Member (a ++ printString k ++ [':', ' '] ++ cs ++ b) (k, d) := by
  have hs : Blank [' '] := by simp [Blank, isSpace]
  have h := Member.mk ha (quoted_flatMap k.toList) blank_nil (.mk hs hd hb)
  rw [String.ofList_toList] at h
  simpa [printString] using h

mutual

/-- The printed text of a document is one that the grammar derives for it. -/
theorem value_print (n : Nat) : (d : Doc) → Value (print n d) d
  | .null => .null
  | .bool true => .yes
  | .bool false => .no
  | .num i => .num (integer_printInt i)
  | .str s => value_printString s
  | .arr [] => .noItems blank_nil
  | .arr (d :: ds) => by
    have h := items_print (n + 1) (blank_newline (n + 1)) (value_print (n + 1) d)
      (blank_newline n) ds
    simpa [print] using Value.arr h
  | .obj [] => .noMembers blank_nil
  | .obj ((k, d) :: ms) => by
    have h := members_print (n + 1) k (blank_newline (n + 1)) (value_print (n + 1) d)
      (blank_newline n) ms
    simpa [print] using Value.obj h

theorem items_print (n : Nat) {a cs b : List Char} {d : Doc} (ha : Blank a) (hd : Value cs d)
    (hb : Blank b) : (ds : List Doc) → Items (a ++ cs ++ printItems n ds ++ b) (d :: ds)
  | [] => by
    rw [printItems, List.append_nil]
    exact .one (.mk ha hd hb)
  | e :: ds => by
    have h := items_print n (blank_newline n) (value_print n e) hb ds
    simpa [printItems] using Items.more (.mk ha hd blank_nil) h

theorem members_print (n : Nat) {a cs b : List Char} {d : Doc} (k : String) (ha : Blank a)
    (hd : Value cs d) (hb : Blank b) : (ms : List (String × Doc)) →
      Members (a ++ printString k ++ [':', ' '] ++ cs ++ printMembers n ms ++ b) ((k, d) :: ms)
  | [] => by
    rw [printMembers, List.append_nil]
    exact .one (member_print k ha hd hb)
  | (l, e) :: ms => by
    have h := members_print n l (blank_newline n) (value_print n e) hb ms
    simpa [printMembers] using Members.more (member_print k ha hd blank_nil) h

end

theorem toList_render (d : Doc) : (render d).toList = print 0 (d.mapKeys foldKey) ++ ['\n'] := by
  rw [render, foldText_print, String.toList_ofList]

theorem padded_render (d : Doc) : Padded (render d).toList (d.mapKeys foldKey) := by
  rw [toList_render]
  exact .mk blank_nil (value_print 0 _) (blank_newline 0)

/-- Reading the text of a configuration back gives the document in which every placeholder key,
at every depth, has become `include`: the text is one that RFC 8259 allows for that document.
Two documents have one text where they agree after that renaming, and only there. -/
theorem render_reads_back (d : Doc) :
    Padded (render d).toList (d.mapKeys foldKey) ∧
      read? (render d) = some (d.mapKeys foldKey) ∧
      (∀ k, (IsPlaceholder k → foldKey k = "include") ∧ (¬ IsPlaceholder k → foldKey k = k)) ∧
      ∀ d', render d = render d' ↔ d.mapKeys foldKey = d'.mapKeys foldKey := by
  refine ⟨padded_render d, read?_eq_some_iff.2 (padded_render d),
    fun _ => ⟨foldKey_of_placeholder, foldKey_of_not_placeholder⟩,
    fun d' => ⟨fun h => ?_, fun h => ?_⟩⟩
  · have hd := padded_render d
    rw [h] at hd
    exact hd.unique (padded_render d')
  · rw [render, render, foldText_print, foldText_print, h]

end AnalyzerConfig.Json
