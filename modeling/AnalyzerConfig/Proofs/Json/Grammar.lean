import AnalyzerConfig.Json.Reader
import Mathlib.Data.List.Basic

namespace AnalyzerConfig.Json

open Text

def Blank (w : List Char) : Prop := ∀ c ∈ w, isSpace c = true

/-- Decimal digits, with a zero in front only where it is the whole number. -/
structure Digits (ds : List Char) : Prop where
  ne_nil : ds ≠ []
  isDigit : ∀ c ∈ ds, c.isDigit = true
  zero : ds.head? = some '0' → ds = ['0']

inductive Integer : List Char → Int → Prop
  | nonneg {ds : List Char} : Digits ds → Integer ds (number 10 ds)
  | neg {ds : List Char} : Digits ds → Integer ('-' :: ds) (-(number 10 ds : Int))

inductive Spelled : List Char → Char → Prop
  | plain {c : Char} : 0x20 ≤ c.toNat → c ≠ '"' → c ≠ '\\' → Spelled [c] c
  | short {c x : Char} : escaped? c = some x → Spelled ['\\', c] x
  | unit {a b c d x : Char} {n : Nat} :
      fourHex? a b c d = some n → unit? n = some x → Spelled ['\\', 'u', a, b, c, d] x
  | pair {a b c d e f g h x : Char} {high low : Nat} :
      fourHex? a b c d = some high → fourHex? e f g h = some low → pair? high low = some x →
        Spelled ['\\', 'u', a, b, c, d, '\\', 'u', e, f, g, h] x

/-- The texts of a string, without its quotes. -/
inductive Quoted : List Char → List Char → Prop
  | nil : Quoted [] []
  | cons {u cs s : List Char} {c : Char} : Spelled u c → Quoted cs s → Quoted (u ++ cs) (c :: s)

mutual

/-- The texts of a document, from its first character to its last. -/
inductive Value : List Char → Doc → Prop
  | null : Value ['n', 'u', 'l', 'l'] .null
  | yes : Value ['t', 'r', 'u', 'e'] (.bool true)
  | no : Value ['f', 'a', 'l', 's', 'e'] (.bool false)
  | num {cs : List Char} {n : Int} : Integer cs n → Value cs (.num n)
  | str {cs s : List Char} : Quoted cs s → Value ('"' :: cs ++ ['"']) (.str (String.ofList s))
  | noItems {w : List Char} : Blank w → Value ('[' :: w ++ [']']) (.arr [])
  | arr {cs : List Char} {ds : List Doc} : Items cs ds → Value ('[' :: cs ++ [']']) (.arr ds)
  | noMembers {w : List Char} : Blank w → Value ('\x7b' :: w ++ ['\x7d']) (.obj [])
  | obj {cs : List Char} {ms : List (String × Doc)} :
      Members cs ms → Value ('\x7b' :: cs ++ ['\x7d']) (.obj ms)

inductive Padded : List Char → Doc → Prop
  | mk {a cs b : List Char} {d : Doc} : Blank a → Value cs d → Blank b → Padded (a ++ cs ++ b) d

inductive Member : List Char → String × Doc → Prop
  | mk {a k s b cs : List Char} {d : Doc} : Blank a → Quoted k s → Blank b → Padded cs d →
      Member (a ++ '"' :: k ++ '"' :: b ++ ':' :: cs) (String.ofList s, d)

inductive Items : List Char → List Doc → Prop
  | one {cs : List Char} {d : Doc} : Padded cs d → Items cs [d]
  | more {cs cs' : List Char} {d : Doc} {ds : List Doc} :
      Padded cs d → Items cs' ds → Items (cs ++ ',' :: cs') (d :: ds)

inductive Members : List Char → List (String × Doc) → Prop
  | one {cs : List Char} {m : String × Doc} : Member cs m → Members cs [m]
  | more {cs cs' : List Char} {m : String × Doc} {ms : List (String × Doc)} :
      Member cs m → Members cs' ms → Members (cs ++ ',' :: cs') (m :: ms)

end

theorem skipSpace_append {w : List Char} (h : Blank w) (t : List Char) :
    skipSpace (w ++ t) = skipSpace t :=
  List.dropWhile_append_of_pos h

theorem skipSpace_cons {c : Char} (h : isSpace c = false) (t : List Char) :
    skipSpace (c :: t) = c :: t :=
  List.dropWhile_cons_of_neg (by simp [h])

theorem exists_blank {cs t : List Char} (h : skipSpace cs = t) : ∃ w, Blank w ∧ cs = w ++ t := by
  refine ⟨cs.takeWhile isSpace, ?_, ?_⟩
  · intro c hc
    exact List.all_eq_true.1 List.all_takeWhile c hc
  · rw [← h, skipSpace, List.takeWhile_append_dropWhile]

theorem skipSpace_eq_nil {cs : List Char} : skipSpace cs = [] ↔ Blank cs := by
  apply Iff.intro
  · intro h
    obtain ⟨w, hw, hcs⟩ := exists_blank h
    rw [List.append_nil] at hcs
    exact hcs ▸ hw
  · intro h
    have hs := skipSpace_append h []
    rwa [List.append_nil] at hs

/-- What may follow a value: nothing that would make a number longer. -/
def Ends (t : List Char) : Prop :=
  ∀ c, t.head? = some c → c.isDigit = false ∧ c ≠ '.' ∧ c ≠ 'e' ∧ c ≠ 'E'

theorem ends_nil : Ends [] := fun _ h => by cases h

theorem ends_cons {c : Char} (h : c.isDigit = false ∧ c ≠ '.' ∧ c ≠ 'e' ∧ c ≠ 'E')
    (t : List Char) : Ends (c :: t) := fun _ hc => by cases hc; exact h

theorem ends_space {c : Char} (h : isSpace c = true) (t : List Char) : Ends (c :: t) := by
  simp only [isSpace, Bool.or_eq_true, beq_iff_eq] at h
  rcases h with ((rfl | rfl) | rfl) | rfl <;> exact ends_cons (by decide) t

theorem Blank.ends {w : List Char} (h : Blank w) {t : List Char} (ht : Ends t) :
    Ends (w ++ t) := by
  cases w with
  | nil => exact ht
  | cons c w => exact ends_space (h c List.mem_cons_self) _

theorem takeWhile_digits {ds t : List Char} (h : ∀ c ∈ ds, c.isDigit = true) (ht : Ends t) :
    (ds ++ t).takeWhile Char.isDigit = ds := by
  rw [List.takeWhile_append_of_pos h]
  cases t with
  | nil => simp
  | cons c t => simp [(ht c rfl).1]

theorem dropWhile_digits {ds t : List Char} (h : ∀ c ∈ ds, c.isDigit = true) (ht : Ends t) :
    (ds ++ t).dropWhile Char.isDigit = t := by
  rw [List.dropWhile_append_of_pos h]
  cases t with
  | nil => rfl
  | cons c t => simp [(ht c rfl).1]

theorem readDigits_append {ds t : List Char} (h : Digits ds) (ht : Ends t) :
    readDigits (ds ++ t) = some (number 10 ds, t) := by
  rw [readDigits, takeWhile_digits h.isDigit ht, dropWhile_digits h.isDigit ht]
  split
  · exact absurd rfl h.ne_nil
  · exact absurd (h.zero rfl) (by simp)
  · apply if_neg
    cases t with
    | nil => simp
    | cons c t => simp [(ht c rfl).2]

theorem readDigits_eq_some {cs rest : List Char} {n : Nat} (h : readDigits cs = some (n, rest)) :
    ∃ ds, Digits ds ∧ n = number 10 ds ∧ cs = ds ++ rest := by
  have hall : ∀ c ∈ cs.takeWhile Char.isDigit, c.isDigit = true := fun _ hc =>
    List.all_eq_true.1 List.all_takeWhile _ hc
  have hcs : cs = cs.takeWhile Char.isDigit ++ cs.dropWhile Char.isDigit :=
    List.takeWhile_append_dropWhile.symm
  rw [readDigits] at h
  generalize cs.takeWhile Char.isDigit = ds, cs.dropWhile Char.isDigit = tail at h hall hcs
  split at h
  · cases h
  · cases h
  · next hnil hzero =>
    split_ifs at h
    cases h
    refine ⟨ds, ⟨hnil, hall, fun h0 => ?_⟩, rfl, hcs⟩
    obtain ⟨ds, rfl⟩ := List.head?_eq_some_iff.1 h0
    cases ds with
    | nil => rfl
    | cons d ds => exact absurd rfl (hzero d ds)

theorem Digits.head {ds : List Char} (h : Digits ds) :
    ∃ c cs, ds = c :: cs ∧ c.isDigit = true := by
  cases ds with
  | nil => exact absurd rfl h.ne_nil
  | cons c cs => exact ⟨c, cs, rfl, h.isDigit c List.mem_cons_self⟩

theorem readInt_append {cs t : List Char} {n : Int} (h : Integer cs n) (ht : Ends t) :
    readInt (cs ++ t) = some (n, t) := by
  cases h with
  | neg hd => rw [List.cons_append, readInt, readDigits_append hd ht, Option.map_some]
  | nonneg hd =>
    obtain ⟨c, ds, rfl, hc⟩ := hd.head
    rw [readInt, readDigits_append hd ht, Option.map_some]
    intro _ hm
    cases hm
    exact absurd hc (by decide)

theorem readInt_eq_some {cs rest : List Char} {n : Int} (h : readInt cs = some (n, rest)) :
    ∃ u, Integer u n ∧ cs = u ++ rest := by
  unfold readInt at h
  split at h
  all_goals
    simp only [Option.map_eq_some_iff, Prod.mk.injEq, Prod.exists] at h
    obtain ⟨m, r, hm, rfl, rfl⟩ := h
    obtain ⟨ds, hds, rfl, rfl⟩ := readDigits_eq_some hm
  · exact ⟨'-' :: ds, .neg hds, rfl⟩
  · exact ⟨ds, .nonneg hds, rfl⟩

theorem unit?_of_pair {high low : Nat} {x : Char} (h : pair? high low = some x) :
    unit? high = none := by
  unfold pair? at h
  split at h
  · next hs =>
    apply if_neg
    intro hv
    obtain hv | hv := hv <;> omega
  · cases h

theorem readString_append {u : List Char} {c : Char} (h : Spelled u c) (t : List Char) :
    readString (u ++ t) = (readString t).cons c := by
  cases h with
  | plain hle hq hb =>
    rw [List.singleton_append, readString]
    · exact if_pos ⟨hle, hb⟩
    · exact hq
    · exact fun _ _ _ _ _ _ _ _ _ h => absurd h hb
    · exact fun _ _ _ _ _ h => absurd h hb
    · exact fun _ _ h => absurd h hb
  | @short e _ he =>
    have hu : e ≠ 'u' := by
      rintro rfl
      cases he
    rw [List.cons_append, List.singleton_append, readString]
    · rw [he]
      rfl
    · exact fun _ _ _ _ _ _ _ _ _ h => absurd h hu
    · exact fun _ _ _ _ _ h => absurd h hu
  | @unit a b c d _ n hn hx =>
    by_cases hp : ∃ e f g h r, t = '\\' :: 'u' :: e :: f :: g :: h :: r
    · obtain ⟨e, f, g, h, r, rfl⟩ := hp
      simp only [List.cons_append, List.nil_append, readString, hn, hx, Option.bind_eq_bind,
        Option.bind_some]
    · simp only [List.cons_append, List.nil_append]
      rw [readString]
      · simp only [hn, hx, Option.bind_eq_bind, Option.bind_some]
      · exact fun e f g h r ht => hp ⟨e, f, g, h, r, ht⟩
  | pair hh hl hx =>
    simp only [List.cons_append, List.nil_append, readString, hh, hl, hx, unit?_of_pair hx,
      Option.bind_eq_bind, Option.bind_some]

theorem readString_quoted {u s : List Char} (h : Quoted u s) (t : List Char) :
    readString (u ++ '"' :: t) = some (s, t) := by
  induction h with
  | nil => simp [readString]
  | cons hc _ ih => rw [List.append_assoc, readString_append hc, ih]; rfl

theorem StringBody.cons_eq_some {c : Char} {b : StringBody} {s rest : List Char}
    (h : b.cons c = some (s, rest)) : ∃ s', s = c :: s' ∧ b = some (s', rest) := by
  simp only [StringBody.cons, Option.map_eq_some_iff, Prod.mk.injEq, Prod.exists] at h
  obtain ⟨s', r, hb, rfl, rfl⟩ := h
  exact ⟨s', rfl, hb⟩

theorem quoted_of_cons {u tail s rest : List Char} {c : Char} (hc : Spelled u c)
    (h : (readString tail).cons c = some (s, rest))
    (ih : ∀ {s : List Char}, readString tail = some (s, rest) →
      ∃ v, Quoted v s ∧ tail = v ++ '"' :: rest) :
    ∃ v, Quoted v s ∧ u ++ tail = v ++ '"' :: rest := by
  obtain ⟨s', rfl, hs'⟩ := StringBody.cons_eq_some h
  obtain ⟨v, hv, rfl⟩ := ih hs'
  exact ⟨u ++ v, .cons hc hv, (List.append_assoc ..).symm⟩

theorem readString_eq_some {cs s rest : List Char} (h : readString cs = some (s, rest)) :
    ∃ u, Quoted u s ∧ cs = u ++ '"' :: rest := by
  fun_induction readString cs generalizing s with
  | case1 =>
    cases h
    exact ⟨[], .nil, rfl⟩
  | case2 a b c d e f g k tail ihUnit ihPair =>
    simp only [Option.bind_eq_bind, Option.bind_eq_some_iff] at h
    obtain ⟨high, hhigh, hs⟩ := h
    split at hs
    · next x hx => exact quoted_of_cons (.unit hhigh hx) hs ihUnit
    · simp only [Option.bind_eq_some_iff] at hs
      obtain ⟨low, hlow, x, hx, hs⟩ := hs
      exact quoted_of_cons (.pair hhigh hlow hx) hs ihPair
  | case3 a b c d tail _ ih =>
    simp only [Option.bind_eq_bind, Option.bind_eq_some_iff] at h
    obtain ⟨n, hn, x, hx, hs⟩ := h
    exact quoted_of_cons (.unit hn hx) hs ih
  | case4 e tail _ _ ih =>
    simp only [Option.bind_eq_bind, Option.bind_eq_some_iff] at h
    obtain ⟨x, hx, hs⟩ := h
    exact quoted_of_cons (.short hx) hs ih
  | case5 c tail hq _ _ _ hc ih => exact quoted_of_cons (.plain hc.1 hq hc.2) h ih
  | case6 => cases h
  | case7 => cases h

theorem not_isSpace_of_isDigit {c : Char} (h : c.isDigit = true) : isSpace c = false := by
  cases hs : isSpace c with
  | false => rfl
  | true =>
    simp only [isSpace, Bool.or_eq_true, beq_iff_eq] at hs
    rcases hs with ((rfl | rfl) | rfl) | rfl <;> exact absurd h (by decide)

theorem Integer.head {cs : List Char} {n : Int} (h : Integer cs n) :
    ∃ c u, cs = c :: u ∧ (c = '-' ∨ c.isDigit = true) := by
  cases h with
  | neg => exact ⟨_, _, rfl, .inl rfl⟩
  | nonneg hd =>
    obtain ⟨c, u, rfl, hc⟩ := hd.head
    exact ⟨c, u, rfl, .inr hc⟩

theorem Value.head {cs : List Char} {d : Doc} (h : Value cs d) :
    ∃ c u, cs = c :: u ∧ isSpace c = false ∧ c ≠ ']' := by
  cases h with
  | num hn =>
    obtain ⟨c, u, rfl, rfl | hc⟩ := hn.head
    · exact ⟨_, _, rfl, by decide, by decide⟩
    · exact ⟨c, u, rfl, not_isSpace_of_isDigit hc, by rintro rfl; exact absurd hc (by decide)⟩
  | _ => exact ⟨_, _, rfl, by decide, by decide⟩

theorem Value.length_pos {cs : List Char} {d : Doc} (h : Value cs d) : 0 < cs.length := by
  obtain ⟨c, u, rfl, -⟩ := h.head
  exact Nat.succ_pos _

theorem Padded.skipSpace {cs : List Char} {d : Doc} (h : Padded cs d) (t : List Char) :
    ∃ c u, skipSpace (cs ++ t) = c :: u ∧ c ≠ ']' := by
  cases h with
  | mk ha hv hb =>
    obtain ⟨c, u, rfl, hs, hc⟩ := hv.head
    rw [List.append_assoc, List.append_assoc, skipSpace_append ha, List.cons_append,
      skipSpace_cons hs]
    exact ⟨c, _, rfl, hc⟩

theorem Items.skipSpace {cs : List Char} {ds : List Doc} (h : Items cs ds) (t : List Char) :
    ∃ c u, skipSpace (cs ++ t) = c :: u ∧ c ≠ ']' := by
  cases h with
  | one hd => exact hd.skipSpace t
  | more hd =>
    rw [List.append_assoc]
    exact hd.skipSpace _

theorem Members.skipSpace {cs : List Char} {ms : List (String × Doc)} (h : Members cs ms)
    (t : List Char) : ∃ u, skipSpace (cs ++ t) = '"' :: u := by
  have member {cs : List Char} {m : String × Doc} (h : Member cs m) (t : List Char) :
      ∃ u, Json.skipSpace (cs ++ t) = '"' :: u := by
    cases h with
    | mk ha =>
      simp only [List.append_assoc, List.cons_append]
      rw [skipSpace_append ha, skipSpace_cons (by decide)]
      exact ⟨_, rfl⟩
  cases h with
  | one hm => exact member hm t
  | more hm =>
    rw [List.append_assoc]
    exact member hm _

theorem readDoc_append {w : List Char} (h : Blank w) (fuel : Nat) (t : List Char) :
    readDoc fuel (w ++ t) = readDoc fuel t := by
  cases fuel with
  | zero => rfl
  | succ fuel => simp only [readDoc, skipSpace_append h]

theorem readDoc_scalar {c : Char} (hs : isSpace c = false) (ha : c ≠ '[') (ho : c ≠ '\x7b')
    (fuel : Nat) (t : List Char) : readDoc (fuel + 1) (c :: t) = readScalar (c :: t) := by
  rw [readDoc, skipSpace_cons hs]
  split
  · next h => exact absurd (List.cons.inj h).1 ha
  · next h => exact absurd (List.cons.inj h).1 ho
  · rfl

theorem readDoc_noItems {w : List Char} (h : Blank w) (fuel : Nat) (t : List Char) :
    readDoc (fuel + 1) ('[' :: (w ++ ']' :: t)) = some (.arr [], t) := by
  simp only [readDoc, skipSpace_cons (c := '[') (by decide), skipSpace_append h]
  rw [skipSpace_cons (by decide)]
  rfl

theorem readDoc_items {rest : List Char} (h : ∃ c u, skipSpace rest = c :: u ∧ c ≠ ']')
    (fuel : Nat) :
    readDoc (fuel + 1) ('[' :: rest) = (readItems fuel rest).map fun (ds, t) => (.arr ds, t) := by
  obtain ⟨c, u, hs, hc⟩ := h
  simp only [readDoc, skipSpace_cons (c := '[') (by decide), hs]
  split
  · next h => exact absurd (List.cons.inj h).1 hc
  · rfl

theorem readDoc_noMembers {w : List Char} (h : Blank w) (fuel : Nat) (t : List Char) :
    readDoc (fuel + 1) ('\x7b' :: (w ++ '\x7d' :: t)) = some (.obj [], t) := by
  simp only [readDoc, skipSpace_cons (c := '\x7b') (by decide), skipSpace_append h]
  rw [skipSpace_cons (by decide)]
  rfl

theorem readDoc_members {rest : List Char} (h : ∃ u, skipSpace rest = '"' :: u) (fuel : Nat) :
    readDoc (fuel + 1) ('\x7b' :: rest) =
      (readMembers fuel rest).map fun (ms, t) => (.obj ms, t) := by
  obtain ⟨u, hs⟩ := h
  simp only [readDoc, skipSpace_cons (c := '\x7b') (by decide), hs]
  rfl

theorem readScalar_integer {cs t : List Char} {n : Int} (h : Integer cs n) (ht : Ends t) :
    readScalar (cs ++ t) = some (.num n, t) := by
  have hr := readInt_append h ht
  obtain ⟨c, u, rfl, hc⟩ := h.head
  rw [readScalar, hr, Option.map_some]
  all_goals
    intro _ he
    obtain ⟨rfl, -⟩ := List.cons.inj he
    exact absurd hc (by decide)

theorem readDoc_integer {cs t : List Char} {n : Int} (h : Integer cs n) (ht : Ends t)
    (fuel : Nat) : readDoc (fuel + 1) (cs ++ t) = some (.num n, t) := by
  have hr := readScalar_integer h ht
  obtain ⟨c, u, rfl, hc⟩ := h.head
  have hs : isSpace c = false := by
    rcases hc with rfl | hc
    · rfl
    · exact not_isSpace_of_isDigit hc
  rw [List.cons_append, readDoc_scalar hs, ← List.cons_append, hr]
  all_goals
    rintro rfl
    exact absurd hc (by decide)

/-- Reading one item and what the character behind it decides. -/
theorem readItems_append {cs w t : List Char} {d : Doc} {fuel : Nat} (hw : Blank w)
    (hr : readDoc fuel (cs ++ t) = some (d, w ++ t)) :
    (∀ u, t = ']' :: u → readItems (fuel + 1) (cs ++ t) = some ([d], u)) ∧
      ∀ u, t = ',' :: u →
        readItems (fuel + 1) (cs ++ t) = (readItems fuel u).map fun (ds, v) => (d :: ds, v) := by
  constructor
  · rintro u rfl
    simp only [readItems, hr, Option.bind_eq_bind, Option.bind_some, skipSpace_append hw]
    rw [skipSpace_cons (by decide)]
    rfl
  · rintro u rfl
    simp only [readItems, hr, Option.bind_eq_bind, Option.bind_some, skipSpace_append hw]
    rw [skipSpace_cons (by decide)]
    exact Option.map_eq_bind.symm

theorem readMembers_append {a k s b cs w t : List Char} {d : Doc} {fuel : Nat} (ha : Blank a)
    (hk : Quoted k s) (hb : Blank b) (hw : Blank w)
    (hr : readDoc fuel (cs ++ t) = some (d, w ++ t)) :
    (∀ u, t = '\x7d' :: u →
        readMembers (fuel + 1) (a ++ '"' :: (k ++ '"' :: (b ++ ':' :: (cs ++ t)))) =
          some ([(String.ofList s, d)], u)) ∧
      ∀ u, t = ',' :: u →
        readMembers (fuel + 1) (a ++ '"' :: (k ++ '"' :: (b ++ ':' :: (cs ++ t)))) =
          (readMembers fuel u).map fun (ms, v) => ((String.ofList s, d) :: ms, v) := by
  have hq : skipSpace (a ++ '"' :: (k ++ '"' :: (b ++ ':' :: (cs ++ t)))) =
      '"' :: (k ++ '"' :: (b ++ ':' :: (cs ++ t))) := by
    rw [skipSpace_append ha, skipSpace_cons (by decide)]
  have hc : skipSpace (b ++ ':' :: (cs ++ t)) = ':' :: (cs ++ t) := by
    rw [skipSpace_append hb, skipSpace_cons (by decide)]
  constructor
  · rintro u rfl
    simp only [readMembers, hq, readString_quoted hk, hc, hr, Option.bind_eq_bind,
      Option.bind_some, skipSpace_append hw]
    rw [skipSpace_cons (by decide)]
    rfl
  · rintro u rfl
    simp only [readMembers, hq, readString_quoted hk, hc, hr, Option.bind_eq_bind,
      Option.bind_some, skipSpace_append hw]
    rw [skipSpace_cons (by decide)]
    exact Option.map_eq_bind.symm

mutual

theorem readDoc_value (fuel : Nat) {cs t : List Char} {d : Doc} (ht : Ends t) :
    Value cs d → 2 * cs.length ≤ fuel + 1 → readDoc (fuel + 1) (cs ++ t) = some (d, t)
  | .null, _ => rfl
  | .yes, _ => rfl
  | .no, _ => rfl
  | .num hn, _ => readDoc_integer hn ht fuel
  | .str hs, _ => by
    rw [List.append_assoc, List.cons_append, readDoc_scalar (by decide) (by decide) (by decide),
      readScalar, List.singleton_append, readString_quoted hs, Option.map_some]
  | .noItems hw, _ => by
    rw [List.append_assoc, List.cons_append, List.singleton_append, readDoc_noItems hw]
  | .arr hi, hf => by
    obtain ⟨fuel, rfl⟩ := Nat.exists_eq_add_one_of_ne_zero (n := fuel) (by grind)
    rw [List.append_assoc, List.cons_append, List.singleton_append,
      readDoc_items (hi.skipSpace _), readItems_items fuel hi (by grind), Option.map_some]
  | .noMembers hw, _ => by
    rw [List.append_assoc, List.cons_append, List.singleton_append, readDoc_noMembers hw]
  | .obj hm, hf => by
    obtain ⟨fuel, rfl⟩ := Nat.exists_eq_add_one_of_ne_zero (n := fuel) (by grind)
    rw [List.append_assoc, List.cons_append, List.singleton_append,
      readDoc_members (hm.skipSpace _), readMembers_members fuel hm (by grind), Option.map_some]

theorem readDoc_padded (fuel : Nat) {cs t : List Char} {d : Doc} (ht : Ends t) :
    Padded cs d → 2 * cs.length ≤ fuel →
      ∃ w, Blank w ∧ readDoc fuel (cs ++ t) = some (d, w ++ t)
  | @Padded.mk _ _ b _ ha hv hb, hf => by
    have hpos := hv.length_pos
    obtain ⟨fuel, rfl⟩ := Nat.exists_eq_add_one_of_ne_zero (n := fuel) (by grind)
    refine ⟨b, hb, ?_⟩
    rw [List.append_assoc, List.append_assoc, readDoc_append ha]
    exact readDoc_value fuel (hb.ends ht) hv (by grind)

theorem readItems_items (fuel : Nat) {cs t : List Char} {ds : List Doc} :
    Items cs ds → 2 * cs.length ≤ fuel → readItems (fuel + 1) (cs ++ ']' :: t) = some (ds, t)
  | .one hd, hf => by
    obtain ⟨w, hw, hr⟩ := readDoc_padded fuel (ends_cons (c := ']') (by decide) t) hd hf
    exact (readItems_append hw hr).1 t rfl
  | @Items.more _ cs' _ _ hd hds, hf => by
    obtain ⟨fuel, rfl⟩ := Nat.exists_eq_add_one_of_ne_zero (n := fuel) (by grind)
    obtain ⟨w, hw, hr⟩ := readDoc_padded (fuel + 1)
      (ends_cons (c := ',') (by decide) (cs' ++ ']' :: t)) hd (by grind)
    rw [List.append_assoc, List.cons_append, (readItems_append hw hr).2 _ rfl,
      readItems_items fuel hds (by grind), Option.map_some]

theorem readMembers_members (fuel : Nat) {cs t : List Char} {ms : List (String × Doc)} :
    Members cs ms → 2 * cs.length ≤ fuel →
      readMembers (fuel + 1) (cs ++ '\x7d' :: t) = some (ms, t)
  | .one (.mk ha hk hb hd), hf => by
    obtain ⟨w, hw, hr⟩ := readDoc_padded fuel (ends_cons (c := '\x7d') (by decide) t) hd
      (by grind)
    simp only [List.append_assoc, List.cons_append]
    exact (readMembers_append ha hk hb hw hr).1 t rfl
  | @Members.more _ cs' _ _ (.mk ha hk hb hd) hms, hf => by
    obtain ⟨fuel, rfl⟩ := Nat.exists_eq_add_one_of_ne_zero (n := fuel) (by grind)
    obtain ⟨w, hw, hr⟩ := readDoc_padded (fuel + 1)
      (ends_cons (c := ',') (by decide) (cs' ++ '\x7d' :: t)) hd (by grind)
    simp only [List.append_assoc, List.cons_append]
    rw [(readMembers_append ha hk hb hw hr).2 _ rfl, readMembers_members fuel hms (by grind),
      Option.map_some]

end

theorem readScalar_eq_some {cs rest : List Char} {d : Doc} (h : readScalar cs = some (d, rest)) :
    ∃ u, Value u d ∧ cs = u ++ rest := by
  unfold readScalar at h
  split at h
  · simp only [Option.map_eq_some_iff, Prod.mk.injEq, Prod.exists] at h
    obtain ⟨s, r, hs, rfl, rfl⟩ := h
    obtain ⟨u, hu, rfl⟩ := readString_eq_some hs
    exact ⟨_, .str hu, by simp⟩
  · cases h
    exact ⟨_, .null, rfl⟩
  · cases h
    exact ⟨_, .yes, rfl⟩
  · cases h
    exact ⟨_, .no, rfl⟩
  · simp only [Option.map_eq_some_iff, Prod.mk.injEq, Prod.exists] at h
    obtain ⟨n, r, hn, rfl, rfl⟩ := h
    obtain ⟨u, hu, rfl⟩ := readInt_eq_some hn
    exact ⟨u, .num hu, rfl⟩

mutual

theorem readDoc_eq_some {cs rest : List Char} {d : Doc} : (fuel : Nat) →
    readDoc fuel cs = some (d, rest) → ∃ a u, Blank a ∧ Value u d ∧ cs = a ++ (u ++ rest)
  | 0, h => by cases h
  | fuel + 1, h => by
    rw [readDoc] at h
    split at h
    · next hc =>
      obtain ⟨a, ha, rfl⟩ := exists_blank hc
      split at h
      · next hc =>
        cases h
        obtain ⟨w, hw, rfl⟩ := exists_blank hc
        exact ⟨a, _, ha, .noItems hw, by simp⟩
      · simp only [Option.map_eq_some_iff, Prod.mk.injEq, Prod.exists] at h
        obtain ⟨ds, r, hi, rfl, rfl⟩ := h
        obtain ⟨u, hu, rfl⟩ := readItems_eq_some fuel hi
        exact ⟨a, _, ha, .arr hu, by simp⟩
    · next hc =>
      obtain ⟨a, ha, rfl⟩ := exists_blank hc
      split at h
      · next hc =>
        cases h
        obtain ⟨w, hw, rfl⟩ := exists_blank hc
        exact ⟨a, _, ha, .noMembers hw, by simp⟩
      · simp only [Option.map_eq_some_iff, Prod.mk.injEq, Prod.exists] at h
        obtain ⟨ms, r, hm, rfl, rfl⟩ := h
        obtain ⟨u, hu, rfl⟩ := readMembers_eq_some fuel hm
        exact ⟨a, _, ha, .obj hu, by simp⟩
    · obtain ⟨a, ha, hcs⟩ := exists_blank (Eq.refl (skipSpace cs))
      obtain ⟨u, hu, hs⟩ := readScalar_eq_some h
      exact ⟨a, u, ha, hu, by rw [← hs, ← hcs]⟩

theorem readItems_eq_some {cs rest : List Char} {ds : List Doc} : (fuel : Nat) →
    readItems fuel cs = some (ds, rest) → ∃ u, Items u ds ∧ cs = u ++ ']' :: rest
  | 0, h => by cases h
  | fuel + 1, h => by
    simp only [readItems, Option.bind_eq_bind, Option.bind_eq_some_iff, Prod.exists] at h
    obtain ⟨d, r, hd, h⟩ := h
    obtain ⟨a, u, ha, hu, rfl⟩ := readDoc_eq_some fuel hd
    split at h
    · next hc =>
      cases h
      obtain ⟨w, hw, rfl⟩ := exists_blank hc
      exact ⟨_, .one (.mk ha hu hw), by simp⟩
    · next hc =>
      simp only [Option.bind_eq_some_iff, Prod.exists] at h
      obtain ⟨ds, r, hi, h⟩ := h
      cases h
      obtain ⟨w, hw, rfl⟩ := exists_blank hc
      obtain ⟨v, hv, rfl⟩ := readItems_eq_some fuel hi
      exact ⟨_, .more (.mk ha hu hw) hv, by simp⟩
    · cases h

theorem readMembers_eq_some {cs rest : List Char} {ms : List (String × Doc)} : (fuel : Nat) →
    readMembers fuel cs = some (ms, rest) → ∃ u, Members u ms ∧ cs = u ++ '\x7d' :: rest
  | 0, h => by cases h
  | fuel + 1, h => by
    simp only [readMembers] at h
    split at h
    · next hq =>
      obtain ⟨a, ha, rfl⟩ := exists_blank hq
      simp only [Option.bind_eq_bind, Option.bind_eq_some_iff, Prod.exists] at h
      obtain ⟨s, r, hs, h⟩ := h
      obtain ⟨k, hk, rfl⟩ := readString_eq_some hs
      split at h
      · next hc =>
        obtain ⟨b, hb, rfl⟩ := exists_blank hc
        simp only [Option.bind_eq_some_iff, Prod.exists] at h
        obtain ⟨d, r, hd, h⟩ := h
        obtain ⟨e, u, he, hu, rfl⟩ := readDoc_eq_some fuel hd
        split at h
        · next hc =>
          cases h
          obtain ⟨w, hw, rfl⟩ := exists_blank hc
          exact ⟨_, .one (.mk ha hk hb (.mk he hu hw)), by simp⟩
        · next hc =>
          simp only [Option.bind_eq_some_iff, Prod.exists] at h
          obtain ⟨ms, r, hm, h⟩ := h
          cases h
          obtain ⟨w, hw, rfl⟩ := exists_blank hc
          obtain ⟨v, hv, rfl⟩ := readMembers_eq_some fuel hm
          exact ⟨_, .more (.mk ha hk hb (.mk he hu hw)) hv, by simp⟩
        · cases h
      · cases h
    · cases h

end

/-- The reader accepts exactly the texts that the grammar derives, and reads each of them as the
document that it is derived for. -/
theorem read?_eq_some_iff {text : String} {d : Doc} :
    read? text = some d ↔ Padded text.toList d := by
  simp only [read?, Option.bind_eq_bind, Option.bind_eq_some_iff, Prod.exists]
  apply Iff.intro
  · rintro ⟨d', rest, hr, h⟩
    split_ifs at h with hs
    cases h
    obtain ⟨a, u, ha, hu, hcs⟩ := readDoc_eq_some _ hr
    rw [hcs, ← List.append_assoc]
    exact .mk ha hu (skipSpace_eq_nil.1 hs)
  · intro h
    obtain ⟨w, hw, hr⟩ := readDoc_padded (2 * text.toList.length + 2) ends_nil h (by omega)
    rw [List.append_nil, List.append_nil] at hr
    exact ⟨d, w, hr, if_pos (skipSpace_eq_nil.2 hw)⟩

theorem Padded.unique {cs : List Char} {d d' : Doc} (h : Padded cs d) (h' : Padded cs d') :
    d = d' := by
  have read {d : Doc} (h : Padded cs d) : read? (String.ofList cs) = some d :=
    read?_eq_some_iff.2 (by rwa [String.toList_ofList])
  exact Option.some.inj ((read h).symm.trans (read h'))

end AnalyzerConfig.Json
