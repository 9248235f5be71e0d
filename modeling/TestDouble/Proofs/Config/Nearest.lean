import TestDouble.Config.File
import TestDouble.FileTree

/-!
# Which configuration file decides

A directory and the directories above it are numbered as levels, the directory itself being level zero, and at each level there
may be a file with a configuration. The search takes the first level with a well-formed file, and the default if there is none
(`found_cases`). A file that can be read but is malformed is passed over like one that cannot be read, so the nearest readable
file decides only if it is well-formed, or if what is found behind it is the default (`nearest_readable_decides_iff`).
-/

namespace TestDouble

/-! ## Levels -/

/-- The path that lies a number of levels above another, if there is one. -/
def FilePath.above : FilePath → Nat → Option FilePath
  | path, 0 => some path
  | path, level + 1 =>
    match path.parent? with
    | none => none
    | some parent => parent.above level

/-- Of the levels below a bound this is the first one at which anything stands. -/
structure FirstAt {α : Type} (depth : Nat) (look : Nat → Option α) (level : Nat) (value : α) : Prop where
  inReach : level < depth
  here : look level = some value
  nearer : ∀ lower < level, look lower = none

/-- Only one thing is the first. -/
theorem FirstAt.unique {α : Type} {depth level level' : Nat} {look : Nat → Option α} {value value' : α}
    (h : FirstAt depth look level value) (h' : FirstAt depth look level' value') : value = value' := by
  rcases Nat.lt_trichotomy level level' with hlt | rfl | hlt
  · have hnone := h'.nearer level hlt
    rw [h.here] at hnone
    cases hnone
  · exact Option.some.inj (h.here.symm.trans h'.here)
  · have hnone := h.nearer level' hlt
    rw [h'.here] at hnone
    cases hnone

/-- A search of a path and the paths above it looks at the path first and then searches its parent. -/
theorem FilePath.findSome?_ancestors {α : Type} (look : FilePath → Option α) (depth : Nat) (path : FilePath) :
    (ancestors (depth + 1) path).findSome? look =
      (look path).or (path.parent?.bind (fun parent => (ancestors depth parent).findSome? look)) := by
  rw [ancestors]
  cases path.parent? with
  | none => cases hlook : look path <;> simp [hlook]
  | some parent => cases hlook : look path <;> simp [hlook]

/-- A search of a path and the paths above it yields what stands at the first level with anything, or nothing if nothing stands
at any level. -/
theorem FilePath.search_cases {α : Type} (look : FilePath → Option α) (depth : Nat) (path : FilePath) :
    (∃ level value, FirstAt depth (fun level => (path.above level).bind look) level value ∧
      (ancestors depth path).findSome? look = some value) ∨
    ((∀ level < depth, (path.above level).bind look = none) ∧ (ancestors depth path).findSome? look = none) := by
  induction depth generalizing path with
  | zero => exact .inr ⟨nofun, rfl⟩
  | succ depth ih =>
    rw [findSome?_ancestors]
    cases hlook : look path with
    | some value => exact .inl ⟨0, value, ⟨Nat.zero_lt_succ depth, hlook, nofun⟩, rfl⟩
    | none =>
      cases hparent : path.parent? with
      | none =>
        refine .inr ⟨fun level _ => ?_, rfl⟩
        cases level with
        | zero => exact hlook
        | succ level => simp [above, hparent]
      | some parent =>
        have hlevel : ∀ level, path.above (level + 1) = parent.above level := by
          intro level
          rw [above, hparent]
        rcases ih parent with ⟨level, value, hfirst, hfound⟩ | ⟨hnone, hfound⟩
        · refine .inl ⟨level + 1, value, ⟨Nat.succ_lt_succ hfirst.inReach, ?_, fun lower hlower => ?_⟩, hfound⟩
          · rw [hlevel]
            exact hfirst.here
          · cases lower with
            | zero => exact hlook
            | succ lower =>
              rw [hlevel]
              exact hfirst.nearer lower (Nat.lt_of_succ_lt_succ hlower)
        · refine .inr ⟨fun level hlt => ?_, hfound⟩
          cases level with
          | zero => exact hlook
          | succ level =>
            rw [hlevel]
            exact hnone level (Nat.lt_of_succ_lt_succ hlt)

namespace Config

variable {readText? : FilePath → Option String} {start : FilePath}

/-- The text of the configuration file a number of levels above a directory, if there is such a file and it can be read. -/
def textAt (readText? : FilePath → Option String) (start : FilePath) (level : Nat) : Option String :=
  (start.above level).bind (fun directory => readText? (directory.join fileName))

/-- The configuration in the file a number of levels above a directory, if that can be read and is well-formed. -/
def configAt (readText? : FilePath → Option String) (start : FilePath) (level : Nat) : Option Config :=
  (textAt readText? start level).bind ofToml?

/-- What is found is the configuration in the first well-formed file, or the default if no file is well-formed. -/
theorem found_cases (readText? : FilePath → Option String) (start : FilePath) :
    (∃ level c, FirstAt searchDepth (configAt readText? start) level c ∧ found readText? start = c) ∨
    ((∀ level < searchDepth, configAt readText? start level = none) ∧ found readText? start = {}) := by
  have hlook : (fun level => (start.above level).bind
      (fun directory => (readText? (directory.join fileName)).bind ofToml?)) = configAt readText? start := by
    funext level
    rw [configAt, textAt, Option.bind_assoc]
  have hcases := FilePath.search_cases (fun directory => (readText? (directory.join fileName)).bind ofToml?) searchDepth start
  rw [hlook] at hcases
  rw [found, filesFor, List.findSome?_map]
  rcases hcases with ⟨level, c, hfirst, hfound⟩ | ⟨hnone, hfound⟩
  · exact .inl ⟨level, c, hfirst, congrArg (·.getD {}) hfound⟩
  · exact .inr ⟨fun level hlevel => congrFun hlook level ▸ hnone level hlevel, congrArg (·.getD {}) hfound⟩

/-- The first well-formed file decides. -/
theorem found_of_firstAt {level : Nat} {c : Config} (h : FirstAt searchDepth (configAt readText? start) level c) :
    found readText? start = c := by
  rcases found_cases readText? start with ⟨level', c', hfirst, hfound⟩ | ⟨hnone, -⟩
  · rw [hfound, hfirst.unique h]
  · have hhere := hnone level h.inReach
    rw [h.here] at hhere
    cases hhere

/-- Without a well-formed file the default is found. -/
theorem found_of_none (h : ∀ level < searchDepth, configAt readText? start level = none) : found readText? start = {} := by
  rcases found_cases readText? start with ⟨level, c, hfirst, -⟩ | ⟨-, hfound⟩
  · have hhere := h level hfirst.inReach
    rw [hfirst.here] at hhere
    cases hhere
  · exact hfound

/-- Where no text can be read there is no configuration. -/
theorem configAt_of_textAt_none {level : Nat} (h : textAt readText? start level = none) :
    configAt readText? start level = none := by
  rw [configAt, h]
  rfl

/-- What is found depends on no file behind the first well-formed one, and on none out of reach. -/
theorem found_congr {other : FilePath → Option String}
    (h : ∀ level < searchDepth, (∀ lower < level, configAt readText? start lower = none) →
      textAt other start level = textAt readText? start level) : found other start = found readText? start := by
  have hsame : ∀ level < searchDepth, (∀ lower < level, configAt readText? start lower = none) →
      configAt other start level = configAt readText? start level := by
    intro level hlevel hnearer
    rw [configAt, configAt, h level hlevel hnearer]
  rcases found_cases readText? start with ⟨level, c, hfirst, hfound⟩ | ⟨hnone, hfound⟩
  · have hfirst' : FirstAt searchDepth (configAt other start) level c := by
      refine ⟨hfirst.inReach, by rw [hsame level hfirst.inReach hfirst.nearer, hfirst.here], fun lower hlower => ?_⟩
      have hnearer : ∀ nearer < lower, configAt readText? start nearer = none :=
        fun nearer hnearer => hfirst.nearer nearer (Nat.lt_trans hnearer hlower)
      rw [hsame lower (Nat.lt_trans hlower hfirst.inReach) hnearer, hfirst.nearer lower hlower]
    rw [found_of_firstAt hfirst', hfound]
  · have hnone' : ∀ level < searchDepth, configAt other start level = none := by
      intro level hlevel
      rw [hsame level hlevel (fun lower hlower => hnone lower (Nat.lt_trans hlower hlevel)), hnone level hlevel]
    rw [found_of_none hnone', hfound]

/-- Which file decides the configuration for a directory. Take any way of reading files and any directory. What is found is the
configuration in the first well-formed file among those in the directory and above it, ten directories in all, and the default
if none of them is well-formed. So it is what the nearest readable file says, with the default where that is malformed, exactly
when that file is well-formed or the first well-formed one behind it, if there is one, spells the default; and it is the default
where no file can be read. It depends on no file behind the first well-formed one, and on none beyond the tenth directory. -/
theorem nearest_readable_decides_iff (readText? : FilePath → Option String) (start : FilePath) :
    ((∃ level c, FirstAt searchDepth (configAt readText? start) level c ∧ found readText? start = c) ∨
      ((∀ level < searchDepth, configAt readText? start level = none) ∧ found readText? start = {})) ∧
    (∀ level text, FirstAt searchDepth (textAt readText? start) level text →
      (found readText? start = (ofToml? text).getD {} ↔
        (ofToml? text).isSome = true ∨ ∀ behind c, FirstAt searchDepth (configAt readText? start) behind c → c = {})) ∧
    ((∀ level < searchDepth, textAt readText? start level = none) → found readText? start = {}) ∧
    ∀ other : FilePath → Option String,
      (∀ level < searchDepth, (∀ lower < level, configAt readText? start lower = none) →
        textAt other start level = textAt readText? start level) →
      found other start = found readText? start := by
  refine ⟨found_cases readText? start, fun level text hnearest => ?_, fun hnone => ?_, fun other h => found_congr h⟩
  · cases htext : ofToml? text with
    | some c =>
      have hfirst : FirstAt searchDepth (configAt readText? start) level c := by
        refine ⟨hnearest.inReach, ?_, fun lower hlower => configAt_of_textAt_none (hnearest.nearer lower hlower)⟩
        rw [configAt, hnearest.here, Option.bind_some, htext]
      exact iff_of_true (found_of_firstAt hfirst) (.inl rfl)
    | none =>
      rw [Option.getD_none]
      constructor
      · intro hdefault
        exact .inr fun behind c hbehind => (found_of_firstAt hbehind).symm.trans hdefault
      · rintro (hsome | hbehind)
        · cases hsome
        · rcases found_cases readText? start with ⟨behind, c, hfirst, hfound⟩ | ⟨-, hfound⟩
          · rw [hfound, hbehind behind c hfirst]
          · exact hfound
  · exact found_of_none fun level hlevel => configAt_of_textAt_none (hnone level hlevel)

namespace NearestExample

/-- The name of a file or directory, in bytes. -/
abbrev name (text : String) : List UInt8 := Text.utf8 text

/-- A directory in another one; the outer one has a file with a configuration, the inner one a file with a text if one is
given. -/
def tree (inner : Option String) : FileTree where
  entries :=
    [([name "work"], .directory), ([name "work", name "app"], .directory),
      ([name "work", name ".mockdef.toml"], .file "naming.prefix = \"Double\"".toUTF8)] ++
    inner.toList.map (fun text => ([name "work", name "app", name ".mockdef.toml"], .file text.toUTF8))

/-- The inner directory. -/
def app : FilePath := .ofText "/work/app"

/-- In the inner directory the given text is read, if there is one, and in the outer directory its own text. -/
theorem textAt_app (inner : Option String) :
    textAt (tree inner).readText? app 0 = inner ∧
      textAt (tree inner).readText? app 1 = some "naming.prefix = \"Double\"" := by
  have habove : app.above 1 = some (.ofText "/work") := by decide +kernel
  have hinner : app.join fileName = .ofText "/work/app/.mockdef.toml" := by decide +kernel
  have houter : (FilePath.ofText "/work").join fileName = .ofText "/work/.mockdef.toml" := by decide +kernel
  constructor
  · rw [textAt, FilePath.above, Option.bind_some, hinner]
    cases inner with
    | none => decide +kernel
    | some text =>
      have hread : (tree (some text)).read? (.ofText "/work/app/.mockdef.toml") = some text.toUTF8 := rfl
      rw [FileTree.readText?, hread, Option.bind_some]
      exact dif_pos text.isValidUTF8
  · rw [textAt, habove, Option.bind_some, houter]
    rfl

/-- The text in the outer directory spells a configuration, and a bracket alone spells none. -/
theorem ofToml?_texts :
    ofToml? "naming.prefix = \"Double\"" = some { naming := { start := "Double" } } ∧ ofToml? "[" = none := by
  decide +kernel

end NearestExample

open NearestExample in
/-- Without a file in the inner directory the one in the outer directory is the nearest, and it decides. -/
theorem nearest_readable_decides_double :
    FirstAt searchDepth (textAt (tree none).readText? app) 1 "naming.prefix = \"Double\"" ∧
      found (tree none).readText? app = { naming := { start := "Double" } } := by
  obtain ⟨hinner, houter⟩ := textAt_app none
  have hnearest : FirstAt searchDepth (textAt (tree none).readText? app) 1 "naming.prefix = \"Double\"" :=
    ⟨by decide, houter, fun lower hlower => by rw [Nat.lt_one_iff.mp hlower, hinner]⟩
  obtain ⟨-, hdecides, -⟩ := nearest_readable_decides_iff (tree none).readText? app
  have hfound := (hdecides 1 _ hnearest).mpr (.inl (by rw [ofToml?_texts.1]; rfl))
  rw [ofToml?_texts.1] at hfound
  exact ⟨hnearest, hfound⟩

open NearestExample in
/-- A malformed file in the inner directory is the nearest that can be read, but what is found is neither the default nor settled
by it alone: it is the configuration in the outer directory. -/
theorem malformed_nearest_passed_over :
    FirstAt searchDepth (textAt (tree (some "[")).readText? app) 0 "[" ∧ ofToml? "[" = none ∧
      found (tree (some "[")).readText? app = { naming := { start := "Double" } } ∧
      found (tree (some "[")).readText? app ≠ {} := by
  obtain ⟨hinner, houter⟩ := textAt_app (some "[")
  obtain ⟨hdouble, hmalformed⟩ := ofToml?_texts
  have hfirst : FirstAt searchDepth (configAt (tree (some "[")).readText? app) 1 { naming := { start := "Double" } } := by
    refine ⟨by decide, by rw [configAt, houter, Option.bind_some, hdouble], fun lower hlower => ?_⟩
    rw [Nat.lt_one_iff.mp hlower, configAt, hinner, Option.bind_some, hmalformed]
  have hfound := found_of_firstAt hfirst
  refine ⟨⟨by decide, hinner, nofun⟩, hmalformed, hfound, ?_⟩
  rw [hfound]
  decide

end Config

end TestDouble
