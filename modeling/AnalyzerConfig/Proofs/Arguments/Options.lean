import AnalyzerConfig.Arguments
import Mathlib.Data.List.Basic

namespace AnalyzerConfig

variable {arg w : String} {o : ValueOption}

namespace ValueOption

def name : ValueOption → String
  | .root => "root"
  | .layout => "layout"
  | .excludeTest => "exclude-test"

def flag (o : ValueOption) : String := "--" ++ o.name

/-- The argument that gives an option a value by itself. -/
def flagWith (o : ValueOption) (value : String) : String := o.flag ++ "=" ++ value

/-- Whether an argument gives an option, with a value or without one. -/
def isGivenBy (o : ValueOption) (arg : String) : Bool :=
  arg.toList.takeWhile (· ≠ '=') = o.flag.toList

end ValueOption

/-- Whether an argument is no option. A single dash is a word. -/
def isWord (arg : String) : Bool :=
  match arg.toList with
  | '-' :: _ :: _ => false
  | _ => true

theorem isWord_of_cons {c : Char} {cs : List Char} (h : arg.toList = '-' :: c :: cs) :
    isWord arg = false := by
  simp only [isWord, h]

namespace ValueOption

theorem toList_flag (o : ValueOption) : o.flag.toList = '-' :: '-' :: o.name.toList := by
  cases o <;> rfl

theorem toList_flagWith (o : ValueOption) (v : String) :
    (o.flagWith v).toList = '-' :: '-' :: (o.name.toList ++ '=' :: v.toList) := by
  rw [flagWith, String.toList_append, String.toList_append, toList_flag, List.append_assoc]
  rfl

theorem ne_equals_of_mem_name {c : Char} (h : c ∈ o.name.toList) : decide (c ≠ '=') = true := by
  have hname : '=' ∉ o.name.toList := by
    cases o <;> decide
  exact decide_eq_true fun heq => hname (heq ▸ h)

theorem ofName?_name (o : ValueOption) : ofName? o.name.toList = some o := by
  cases o <;> decide

theorem flag_injective : Function.Injective flag := by
  intro o o' h
  have hname := congrArg String.toList h
  rw [toList_flag, toList_flag] at hname
  have hoption := congrArg ofName? (List.cons.inj (List.cons.inj hname).2).2
  rw [ofName?_name, ofName?_name] at hoption
  exact Option.some.inj hoption

theorem eq_name_of_ofName? {name : List Char} (h : ofName? name = some o) :
    name = o.name.toList := by
  unfold ofName? at h
  split at h
  · next hname => exact Option.some.inj h ▸ hname
  split at h
  · next hname => exact Option.some.inj h ▸ hname
  split at h
  · next hname => exact Option.some.inj h ▸ hname
  · cases h

theorem isGivenBy_of_text {o' : ValueOption}
    (h : arg.toList.takeWhile (· ≠ '=') = o'.flag.toList) :
    o.isGivenBy arg = decide (o' = o) := by
  rw [isGivenBy, h, decide_eq_decide, String.toList_inj]
  exact flag_injective.eq_iff

theorem isGivenBy_flag (o o' : ValueOption) : o.isGivenBy o'.flag = decide (o' = o) := by
  apply isGivenBy_of_text
  cases o' <;> decide

theorem isGivenBy_flagWith (o o' : ValueOption) (v : String) :
    o.isGivenBy (o'.flagWith v) = decide (o' = o) := by
  apply isGivenBy_of_text
  rw [toList_flagWith, toList_flag, List.takeWhile_cons_of_pos (by decide),
    List.takeWhile_cons_of_pos (by decide),
    List.takeWhile_append_of_pos fun _ => ne_equals_of_mem_name,
    List.takeWhile_cons_of_neg (by decide), List.append_nil]

theorem isGivenBy_word (o : ValueOption) (h : isWord w = true) : o.isGivenBy w = false := by
  rw [isGivenBy, decide_eq_false_iff_not]
  intro hflag
  obtain ⟨rest, hrest⟩ := List.takeWhile_prefix (p := (· ≠ '=')) (l := w.toList)
  rw [hflag, toList_flag] at hrest
  cases h.symm.trans (isWord_of_cons hrest.symm)

end ValueOption

theorem isWord_flag (o : ValueOption) : isWord o.flag = false :=
  isWord_of_cons (ValueOption.toList_flag o)

theorem isWord_flagWith (o : ValueOption) (v : String) : isWord (o.flagWith v) = false :=
  isWord_of_cons (ValueOption.toList_flagWith o v)

end AnalyzerConfig
