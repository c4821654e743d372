import AnalyzerConfig.Proofs.Path.Below
import AnalyzerConfig.Proofs.Project.Finding

namespace AnalyzerConfig

def Path.IsHyphen (p : String) : Prop := components p = [.name (.text "-")]

instance Path.decidableIsHyphen (p : String) : Decidable (IsHyphen p) :=
  inferInstanceAs (Decidable (components p = [.name (.text "-")]))

theorem Path.not_isHyphen_padded (n : Nat) : ¬ IsHyphen (padded n) := by
  rw [IsHyphen, components, start, isAbsolute_padded, namingSegments, segments_padded]
  intro h
  injection h with hfirst
  cases hfirst

namespace Project

variable {root dir : String} {name : Octets}

theorem isStandardInput_below (hroot : root ≠ "") (hin : ¬ Path.IsHyphen root)
    (hdir : Path.isAbsolute dir = false) : isStandardInput (Path.below root dir) = false := by
  rw [← Bool.not_eq_true, isStandardInput, decide_eq_true_iff,
    Path.head?_segments_below hroot hdir, Path.namingSegments_below hdir]
  rintro ⟨hhead, hnaming⟩
  obtain ⟨rest, hsegments⟩ := List.head?_eq_some_iff.1 hhead
  have hfirst : Path.namingSegments root = "-" :: rest.filter Path.isNaming := by
    rw [Path.namingSegments, hsegments]
    rfl
  have hroot : Path.namingSegments root = ["-"] := by
    rw [hfirst, List.cons_append] at hnaming
    rw [hfirst, (List.append_eq_nil_iff.1 (List.cons.inj hnaming).2).1]
  apply hin
  have habsolute : Path.isAbsolute root = false := by
    rw [← Bool.not_eq_true, Path.isAbsolute_iff]
    rintro ⟨rest', -, hslash⟩
    exact absurd (List.cons.inj (hsegments.symm.trans hslash)).1 (by decide)
  rw [Path.IsHyphen, Path.components, Path.start, habsolute, hhead, hroot]
  decide

/-- The path of an entry, with backslashes read as slashes. -/
def slashed (path : String) : String := path.map fun c => if c = '\\' then '/' else c

theorem entryPath_text (hroot : root ≠ "") (hdir : Path.isAbsolute dir = false) (s : String) :
    entryPath root (Path.below root dir) (.text s) =
      .ok (slashed (Path.ofSegments (Path.namingSegments dir ++ [s]))) := by
  rw [entryPath, Path.entryFrom_below hroot hdir]
  rfl

theorem entryPath_of_not_text (hroot : root ≠ "") (hdir : Path.isAbsolute dir = false)
    (hname : name.text? = none) :
    entryPath root (Path.below root dir) name =
      .error (.nameNotText (Path.below root dir) name) := by
  rw [entryPath, Path.entryFrom_below hroot hdir, hname]
  rfl

end Project

end AnalyzerConfig
