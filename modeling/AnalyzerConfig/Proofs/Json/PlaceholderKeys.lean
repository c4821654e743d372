import AnalyzerConfig.Json.Include
import Mathlib.Data.List.Basic

namespace AnalyzerConfig.Json

def keyword : List Char := ['i', 'n', 'c', 'l', 'u', 'd', 'e']

theorem toList_include : "include".toList = keyword := by
  simp only [String.reduceToList, keyword]

theorem toList_quoted_include : "\"include".toList = '"' :: keyword := by
  simp only [String.reduceToList, keyword]

theorem toList_quote_colon : "\":".toList = ['"', ':'] := by
  simp only [String.reduceToList]

/-- The keys `include_`, `include__` and so on. -/
def IsPlaceholder (k : String) : Prop :=
  ∃ n, k = "include" ++ String.ofList (List.replicate (n + 1) '_')

theorem isPlaceholder_iff {k : String} :
    IsPlaceholder k ↔ ∃ n, k.toList = keyword ++ List.replicate (n + 1) '_' := by
  apply Iff.intro
  · intro h
    obtain ⟨n, rfl⟩ := h
    exact ⟨n, by simp [keyword]⟩
  · intro h
    obtain ⟨n, hn⟩ := h
    exact ⟨n, String.toList_injective (by simp [hn, keyword])⟩

theorem foldKey_of_placeholder {k : String} (h : IsPlaceholder k) : foldKey k = "include" := by
  obtain ⟨n, hn⟩ := isPlaceholder_iff.1 h
  have hp : keyword.isPrefixOf? k.toList = some (List.replicate (n + 1) '_') :=
    List.isPrefixOf?_eq_some_iff_append_eq.2 hn.symm
  rw [foldKey, toList_include, hp]
  exact if_pos ⟨by simp, by simp⟩

theorem foldKey_of_not_placeholder {k : String} (h : ¬ IsPlaceholder k) : foldKey k = k := by
  rw [foldKey, toList_include]
  split
  · next rest hrest =>
    have hk := List.isPrefixOf?_eq_some_iff_append_eq.1 hrest
    apply if_neg
    intro hrest
    obtain ⟨hne, hall⟩ := hrest
    apply h
    refine isPlaceholder_iff.2 ⟨rest.length - 1, ?_⟩
    have hu : rest = List.replicate rest.length '_' :=
      List.eq_replicate_iff.2 ⟨rfl, by simpa using hall⟩
    have hlen : rest.length - 1 + 1 = rest.length := Nat.sub_add_cancel (List.length_pos_iff.2 hne)
    rw [hlen, ← hk, ← hu]
  · rfl

/-- How a line with a placeholder key begins, behind its spaces. -/
def placeholder (n : Nat) : List Char :=
  '"' :: keyword ++ (List.replicate (n + 1) '_' ++ ['"', ':'])

theorem afterUnderscores_eq_some {cs rest : List Char} (h : afterUnderscores cs = some rest) :
    ∃ n, cs = List.replicate (n + 1) '_' ++ rest := by
  unfold afterUnderscores at h
  split at h
  · next cs =>
    cases h
    have hall : ∀ c ∈ cs.takeWhile (· == '_'), c = '_' := fun c hc =>
      eq_of_beq (List.all_eq_true.1 List.all_takeWhile c hc)
    have hu : cs.takeWhile (· == '_') = List.replicate (cs.takeWhile (· == '_')).length '_' :=
      List.eq_replicate_iff.2 ⟨rfl, hall⟩
    refine ⟨(cs.takeWhile (· == '_')).length, ?_⟩
    rw [List.replicate_succ, List.cons_append, ← hu, List.takeWhile_append_dropWhile]
  · cases h

theorem afterPlaceholder_placeholder (n : Nat) (rest : List Char) :
    afterPlaceholder (placeholder n ++ rest) = some rest := by
  have hp : ('"' :: keyword).isPrefixOf? (placeholder n ++ rest) =
      some (List.replicate (n + 1) '_' ++ '"' :: ':' :: rest) :=
    List.isPrefixOf?_eq_some_iff_append_eq.2 (by simp [placeholder])
  have hu : afterUnderscores (List.replicate (n + 1) '_' ++ '"' :: ':' :: rest) =
      some ('"' :: ':' :: rest) := by
    rw [List.replicate_succ, List.cons_append, afterUnderscores,
      List.dropWhile_append_of_pos (by simp)]
    rfl
  simp only [afterPlaceholder, toList_quoted_include, toList_quote_colon, hp, hu,
    Option.bind_eq_bind, Option.bind_some]
  exact List.isPrefixOf?_eq_some_iff_append_eq.2 rfl

theorem afterPlaceholder_eq_some {cs rest : List Char} (h : afterPlaceholder cs = some rest) :
    ∃ n, cs = placeholder n ++ rest := by
  simp only [afterPlaceholder, toList_quoted_include, toList_quote_colon, Option.bind_eq_bind,
    Option.bind_eq_some_iff] at h
  obtain ⟨cs₁, h₁, cs₂, h₂, h₃⟩ := h
  obtain ⟨n, hn⟩ := afterUnderscores_eq_some h₂
  have h₁ := List.isPrefixOf?_eq_some_iff_append_eq.1 h₁
  have h₃ := List.isPrefixOf?_eq_some_iff_append_eq.1 h₃
  exact ⟨n, by rw [← h₁, hn, ← h₃, placeholder, List.append_assoc, List.append_assoc]⟩

theorem escapeChar_cases (c : Char) :
    (escapeChar c = [c] ∧ c ≠ '"' ∧ c ≠ '\\' ∧ c ≠ '\n') ∨
      ∃ e, escapeChar c = '\\' :: e ∧ '\n' ∉ e := by
  unfold escapeChar
  split_ifs
  all_goals first
    | exact .inl ⟨rfl, by tauto⟩
    | exact .inr ⟨_, rfl, by simp [fourHex]⟩

/-- A string ends at its first bare quote. -/
theorem escaped_eq_of_bare {cs w rest rest' : List Char} (hw : ∀ c ∈ w, c ≠ '"' ∧ c ≠ '\\')
    (h : cs.flatMap escapeChar ++ '"' :: rest = w ++ '"' :: rest') : cs = w ∧ rest = rest' := by
  induction cs generalizing w with
  | nil =>
    cases w with
    | nil => exact ⟨rfl, (List.cons.inj h).2⟩
    | cons c w => exact absurd (List.cons.inj h).1.symm (hw c List.mem_cons_self).1
  | cons c cs ih =>
    rw [List.flatMap_cons, List.append_assoc] at h
    rcases escapeChar_cases c with ⟨he, hc, -, -⟩ | ⟨e, he, -⟩
    · rw [he] at h
      cases w with
      | nil => exact absurd (List.cons.inj h).1 hc
      | cons d w =>
        obtain ⟨hd, ht⟩ := List.cons.inj h
        obtain ⟨hcs, hr⟩ := ih (fun x hx => hw x (.tail _ hx)) ht
        exact ⟨by rw [hd, hcs], hr⟩
    · rw [he] at h
      cases w with
      | nil => exact absurd (List.cons.inj h).1 (by decide)
      | cons d w => exact absurd (List.cons.inj h).1.symm (hw d List.mem_cons_self).2

theorem bare_keyword : ∀ c ∈ keyword, c ≠ '"' ∧ c ≠ '\\' := by simp [keyword]

theorem printString_eq_placeholder {s : String} {n : Nat} {t rest : List Char}
    (h : printString s ++ t = placeholder n ++ rest) : IsPlaceholder s ∧ t = ':' :: rest := by
  have h : s.toList.flatMap escapeChar ++ '"' :: t =
      (keyword ++ List.replicate (n + 1) '_') ++ '"' :: (':' :: rest) := by
    simpa [printString, placeholder] using h
  have hw : ∀ c ∈ keyword ++ List.replicate (n + 1) '_', c ≠ '"' ∧ c ≠ '\\' := by
    intro c hc
    rcases List.mem_append.1 hc with hc | hc
    · exact bare_keyword c hc
    · rw [List.eq_of_mem_replicate hc]
      decide
  obtain ⟨hs, ht⟩ := escaped_eq_of_bare hw h
  exact ⟨isPlaceholder_iff.2 ⟨n, hs⟩, ht⟩

theorem printString_of_placeholder {k : String} (h : IsPlaceholder k) :
    ∃ n, ∀ rest, printString k ++ ':' :: rest = placeholder n ++ rest := by
  obtain ⟨n, hn⟩ := isPlaceholder_iff.1 h
  have hk : keyword.flatMap escapeChar = keyword := by decide
  have hu : (List.replicate (n + 1) '_').flatMap escapeChar = List.replicate (n + 1) '_' := by
    rw [List.flatMap_replicate]
    simp [escapeChar]
  refine ⟨n, fun rest => ?_⟩
  rw [printString, hn, List.flatMap_append, hk, hu, placeholder]
  simp

theorem newline_not_mem_printString (s : String) : '\n' ∉ printString s := by
  have he (c : Char) : '\n' ∉ escapeChar c := by
    rcases escapeChar_cases c with ⟨he, -, -, hc⟩ | ⟨e, he, hn⟩
    · simpa [he] using hc.symm
    · simpa [he] using hn
  simp [printString, he]

theorem foldText_of_not_mem {a : List Char} (h : '\n' ∉ a) : foldText a = foldLine a := by
  rw [foldText, List.splitOn_eq_singleton h, List.map_singleton, List.intercalate_singleton]

theorem foldText_append_cons {a : List Char} (h : '\n' ∉ a) (b : List Char) :
    foldText (a ++ '\n' :: b) = foldLine a ++ '\n' :: foldText b := by
  rw [foldText, List.splitOn_append_cons_self_of_not_mem h, List.map_cons,
    List.intercalate_cons_of_ne_nil (by simp), foldText, List.append_assoc, List.singleton_append]

/-- What folding makes of the end of a line that has begun, and of the lines after it. -/
def foldRest : List Char → List Char
  | [] => []
  | c :: cs => if c = '\n' then '\n' :: foldText cs else c :: foldRest cs

theorem foldRest_newline (t : List Char) : foldRest ('\n' :: t) = '\n' :: foldText t := rfl

theorem foldRest_cons {c : Char} (h : c ≠ '\n') (t : List Char) :
    foldRest (c :: t) = c :: foldRest t := if_neg h

theorem foldRest_append {a : List Char} (h : '\n' ∉ a) (t : List Char) :
    foldRest (a ++ t) = a ++ foldRest t := by
  induction a with
  | nil => rfl
  | cons c a ih =>
    have hc : c ≠ '\n' := fun hc => h (hc ▸ List.mem_cons_self)
    rw [List.cons_append, foldRest_cons hc, ih (fun hm => h (.tail _ hm)), List.cons_append]

theorem foldText_append {a b x : List Char} (ha : '\n' ∉ a)
    (h : ∀ u v, x = u ++ v → foldLine (a ++ u) = b ++ u) :
    foldText (a ++ x) = b ++ foldRest x := by
  by_cases hx : '\n' ∈ x
  · obtain ⟨u, v, rfl, hu⟩ := List.eq_append_cons_of_mem hx
    have hau : '\n' ∉ a ++ u := fun hm => (List.mem_append.1 hm).elim ha hu
    rw [← List.append_assoc, foldText_append_cons hau, foldRest_append hu, h u _ rfl,
      foldRest_newline, List.append_assoc]
  · have hax : '\n' ∉ a ++ x := fun hm => (List.mem_append.1 hm).elim ha hx
    have hr := foldRest_append hx []
    rw [List.append_nil, foldRest, List.append_nil] at hr
    rw [foldText_of_not_mem hax, hr, h x [] (List.append_nil x).symm]

theorem newline_not_mem_indent (n : Nat) : '\n' ∉ indent n := by simp [indent]

theorem takeWhile_indent (n : Nat) {x : List Char} (hx : x.head? ≠ some ' ') :
    (indent n ++ x).takeWhile (· == ' ') = indent n := by
  rw [indent, List.takeWhile_append_of_pos (by simp)]
  cases x with
  | nil => simp
  | cons c x =>
    have hc : c ≠ ' ' := fun hc => hx (hc ▸ rfl)
    simp [hc]

theorem dropWhile_indent (n : Nat) {x : List Char} (hx : x.head? ≠ some ' ') :
    (indent n ++ x).dropWhile (· == ' ') = x := by
  rw [indent, List.dropWhile_append_of_pos (by simp)]
  cases x with
  | nil => simp
  | cons c x =>
    have hc : c ≠ ' ' := fun hc => hx (hc ▸ rfl)
    simp [hc]

theorem foldText_placeholder (n m : Nat) (x : List Char) :
    foldText (indent n ++ (placeholder m ++ x)) =
      indent n ++ '"' :: keyword ++ '"' :: ':' :: foldRest x := by
  have hn : '\n' ∉ indent n ++ placeholder m := by
    simp [indent, placeholder, keyword]
  rw [← List.append_assoc, foldText_append (b := indent n ++ '"' :: keyword ++ ['"', ':']) hn]
  · simp
  · intro u v hu
    have hp : (placeholder m ++ u).head? ≠ some ' ' := by simp [placeholder]
    rw [List.append_assoc, foldLine, dropWhile_indent n hp, takeWhile_indent n hp,
      afterPlaceholder_placeholder]
    simp [keyword]

theorem foldText_indent (n : Nat) {x : List Char} (hx : x.head? ≠ some ' ')
    (hp : ∀ m rest, x ≠ placeholder m ++ rest) :
    foldText (indent n ++ x) = indent n ++ foldRest x := by
  apply foldText_append (newline_not_mem_indent n)
  intro u v hu
  have hu' : u.head? ≠ some ' ' := by
    intro h
    cases u with
    | nil => cases h
    | cons c u => exact hx (by rw [hu]; exact h)
  have hnone : afterPlaceholder u = none := by
    cases h : afterPlaceholder u with
    | none => rfl
    | some rest =>
      obtain ⟨m, hm⟩ := afterPlaceholder_eq_some h
      exact absurd (by rw [hu, hm, List.append_assoc]) (hp m (rest ++ v))
  rw [foldLine, dropWhile_indent n hu', hnone]

theorem ne_placeholder {x : List Char} (h : x.head? ≠ some '"') (m : Nat) (rest : List Char) :
    x ≠ placeholder m ++ rest := fun hx => h (hx ▸ rfl)

theorem newline_not_mem_printInt (n : Int) : '\n' ∉ printInt n := by
  have hd : '\n' ∉ Nat.toDigits 10 n.natAbs := fun h =>
    absurd (Nat.isDigit_of_mem_toDigits (by decide) (by decide) h) (by decide)
  unfold printInt
  split <;> simp [hd]

theorem head?_printInt (n : Int) (t : List Char) :
    ∃ c, (printInt n ++ t).head? = some c ∧ c ≠ ' ' ∧ c ≠ '"' := by
  unfold printInt
  split
  · exact ⟨'-', rfl, by decide⟩
  · cases h : Nat.toDigits 10 n.natAbs with
    | nil => exact absurd h Nat.toDigits_ne_nil
    | cons c cs =>
      have hd : c.isDigit := Nat.isDigit_of_mem_toDigits (b := 10) (n := n.natAbs)
        (by decide) (by decide) (h ▸ List.mem_cons_self)
      exact ⟨c, rfl, by rintro rfl; exact absurd hd (by decide),
        by rintro rfl; exact absurd hd (by decide)⟩

theorem foldText_item (n k : Nat) (d : Doc) {t : List Char} (ht : t.head? ≠ some ':') :
    foldText (indent n ++ (print k d ++ t)) = indent n ++ foldRest (print k d ++ t) := by
  have plain {c : Char} (h : (print k d ++ t).head? = some c) (hs : c ≠ ' ') (hq : c ≠ '"') :
      foldText (indent n ++ (print k d ++ t)) = indent n ++ foldRest (print k d ++ t) :=
    foldText_indent n (by rw [h]; simpa using hs) (ne_placeholder (by rw [h]; simpa using hq))
  cases d with
  | null => exact plain rfl (by decide) (by decide)
  | bool b => cases b <;> exact plain rfl (by decide) (by decide)
  | num i =>
    obtain ⟨c, hc, hs, hq⟩ := head?_printInt i t
    exact plain hc hs hq
  | str s =>
    apply foldText_indent n (by simp [print, printString])
    intro m rest h
    obtain ⟨-, rfl⟩ := printString_eq_placeholder h
    exact ht rfl
  | arr ds => cases ds <;> exact plain rfl (by decide) (by decide)
  | obj ms =>
    cases ms with
    | nil => exact plain rfl (by decide) (by decide)
    | cons p ms => exact plain rfl (by decide) (by decide)

theorem foldText_member (n : Nat) (k : String) (x : List Char) :
    foldText (indent n ++ (printString k ++ ':' :: x)) =
      indent n ++ (printString (foldKey k) ++ ':' :: foldRest x) := by
  by_cases hk : IsPlaceholder k
  · obtain ⟨m, hm⟩ := printString_of_placeholder hk
    rw [hm, foldText_placeholder, foldKey_of_placeholder hk]
    simp [printString, keyword, escapeChar]
  · rw [foldText_indent n (by simp [printString]), foldRest_append (newline_not_mem_printString k),
      foldRest_cons (by decide), foldKey_of_not_placeholder hk]
    exact fun m rest h => hk (printString_eq_placeholder h).1

theorem foldText_close (n : Nat) {c : Char} (hc : c ≠ ' ' ∧ c ≠ '"' ∧ c ≠ '\n') (t : List Char) :
    foldText (indent n ++ c :: t) = indent n ++ c :: foldRest t := by
  rw [foldText_indent n (by simpa using hc.1) (ne_placeholder (by simpa using hc.2.1)),
    foldRest_cons hc.2.2]

theorem head?_printItems (n : Nat) (ds : List Doc) (t : List Char) :
    (printItems n ds ++ '\n' :: t).head? ≠ some ':' := by
  cases ds <;> simp [printItems]

mutual

theorem foldRest_print (n : Nat) (t : List Char) :
    (d : Doc) → foldRest (print n d ++ t) = print n (d.mapKeys foldKey) ++ foldRest t
  | .null => foldRest_append (a := ['n', 'u', 'l', 'l']) (by decide) t
  | .bool true => foldRest_append (a := ['t', 'r', 'u', 'e']) (by decide) t
  | .bool false => foldRest_append (a := ['f', 'a', 'l', 's', 'e']) (by decide) t
  | .num i => foldRest_append (newline_not_mem_printInt i) t
  | .str s => foldRest_append (newline_not_mem_printString s) t
  | .arr [] => foldRest_append (a := ['[', ']']) (by decide) t
  | .arr (d :: ds) => by
    simp only [print, Doc.mapKeys, mapKeysItems, List.append_assoc, List.cons_append,
      List.nil_append]
    rw [foldRest_cons (by decide), foldRest_newline,
      foldText_item _ _ _ (head?_printItems _ _ _), foldRest_print, foldRest_printItems,
      foldText_close n (by decide)]
  | .obj [] => foldRest_append (a := ['\x7b', '\x7d']) (by decide) t
  | .obj ((k, d) :: ms) => by
    simp only [print, Doc.mapKeys, mapKeysMembers, List.append_assoc, List.cons_append,
      List.nil_append]
    rw [foldRest_cons (by decide), foldRest_newline, foldText_member, foldRest_cons (by decide),
      foldRest_print, foldRest_printMembers, foldRest_newline, foldText_close n (by decide)]

theorem foldRest_printItems (n : Nat) (t : List Char) :
    (ds : List Doc) →
      foldRest (printItems n ds ++ '\n' :: t) =
        printItems n (mapKeysItems foldKey ds) ++ '\n' :: foldText t
  | [] => rfl
  | d :: ds => by
    simp only [printItems, mapKeysItems, List.append_assoc, List.cons_append]
    rw [foldRest_cons (by decide), foldRest_newline,
      foldText_item _ _ _ (head?_printItems _ _ _), foldRest_print, foldRest_printItems]

theorem foldRest_printMembers (n : Nat) (t : List Char) :
    (ms : List (String × Doc)) →
      foldRest (printMembers n ms ++ t) =
        printMembers n (mapKeysMembers foldKey ms) ++ foldRest t
  | [] => rfl
  | (k, d) :: ms => by
    simp only [printMembers, mapKeysMembers, List.append_assoc, List.cons_append, List.nil_append]
    rw [foldRest_cons (by decide), foldRest_newline, foldText_member, foldRest_cons (by decide),
      foldRest_print, foldRest_printMembers]

end

theorem foldText_print (d : Doc) : foldText (print 0 d) = print 0 (d.mapKeys foldKey) := by
  have h := foldText_item 0 0 d (t := []) (by decide)
  rw [foldRest_print] at h
  simpa [indent, foldRest] using h

/-- The text of a configuration is that of the document in which every placeholder key, at every
depth, has become `include`, and nothing else has changed. -/
theorem render_eq_print_mapKeys (d : Doc) :
    render d = String.ofList (print 0 (d.mapKeys foldKey) ++ ['\n']) ∧
      ∀ k, (IsPlaceholder k → foldKey k = "include") ∧ (¬ IsPlaceholder k → foldKey k = k) :=
  ⟨by rw [render, foldText_print],
    fun _ => ⟨foldKey_of_placeholder, foldKey_of_not_placeholder⟩⟩

example : render (.obj [("include_", .str "a\"\\b"), ("t", .arr [.obj [("include__", .num (-1)),
    ("include_d", .null)], .obj [], .arr [.bool true, .arr []]])]) =
    "\n".intercalate ["\x7b", "    \"include\": \"a\\\"\\\\b\",", "    \"t\": [", "        \x7b",
      "            \"include\": -1,", "            \"include_d\": null", "        \x7d,",
      "        \x7b\x7d,", "        [", "            true,", "            []", "        ]", "    ]",
      "\x7d", ""] := by decide +kernel

end AnalyzerConfig.Json
