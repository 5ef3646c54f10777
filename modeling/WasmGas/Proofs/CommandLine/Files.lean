import WasmGas.CommandLine.Files
import WasmGas.Proofs.Except

/-! # What is written is read

A path that can be written to leads to one place, and to the same place after it was written to: no
directory on the way becomes a file, and none goes away. So what was written to a path is
what is read from it (`Files.read_write`), and every other file is as it was
(`Files.lookup_write_of_ne`).
-/

namespace WasmGas

/-- The parts of a place. -/
def Place.parts : Place → List String
  | directory parts => parts
  | file parts _ => parts
  | vacant parts => parts

def Place.isDirectory : Place → Bool
  | directory _ => true
  | _ => false

theorem Place.exists_of_isDirectory {place : Place} (directory : place.isDirectory = true) :
    ∃ parts, place = .directory parts := by
  cases place with
  | directory parts => exact ⟨parts, rfl⟩
  | file _ _ => cases directory
  | vacant _ => cases directory

namespace Files

variable {files : Files} {parts other : List String} {content : Bytes}

/-! ## The files after a write -/

/-- What is put in the place of a file is found there, and only there. -/
theorem lookup_replace (parts : List String) (content : Bytes) (other : List String) :
    List.lookup other (files.map fun file => if file.1 = parts then (parts, content) else file) =
      if other = parts then (files.lookup other).map fun _ => content else files.lookup other := by
  induction files with
  | nil => simp only [List.map_nil, List.lookup_nil, Option.map_none, ite_self]
  | cons head tail same =>
      obtain ⟨place, held⟩ := head
      rw [List.map_cons]
      by_cases here : place = parts
      · subst here
        by_cases asked : other = place
        · subst asked
          simp only [↓reduceIte, List.lookup_cons, beq_self_eq_true, Option.map_some]
        · simp only [↓reduceIte, List.lookup_cons, beq_eq_false_iff_ne.mpr asked, same, asked]
      · by_cases asked : other = place
        · subst asked
          simp only [here, ↓reduceIte, List.lookup_cons, beq_self_eq_true]
        · simp only [here, ↓reduceIte, List.lookup_cons, beq_eq_false_iff_ne.mpr asked, same]

theorem lookup_write_self (inside : isOutside parts = false) :
    (files.write parts content).lookup parts = some content := by
  rw [write, if_neg (Bool.eq_false_iff.mp inside)]
  cases held : files.lookup parts with
  | some old =>
      rw [Option.isSome_some, if_pos rfl, lookup_replace, if_pos rfl, held, Option.map_some]
  | none =>
      rw [Option.isSome_none, if_neg Bool.false_ne_true, List.lookup_append, held, Option.none_or,
        List.lookup_cons_self]

/-- Every other file is as it was. -/
theorem lookup_write_of_ne (apart : other ≠ parts) :
    (files.write parts content).lookup other = files.lookup other := by
  unfold write
  split
  · rfl
  split
  · rw [lookup_replace, if_neg apart]
  · rw [List.lookup_append, List.lookup_cons, beq_eq_false_iff_ne.mpr apart, List.lookup_nil,
      Option.or_none]

/-- No file goes away. -/
theorem exists_mem_write {file : List String × Bytes} (listed : file ∈ files) :
    ∃ held, (file.1, held) ∈ files.write parts content := by
  unfold write
  split
  · exact ⟨file.2, listed⟩
  split
  · by_cases here : file.1 = parts
    · refine ⟨content, List.mem_map.mpr ⟨file, listed, ?_⟩⟩
      rw [if_pos here, here]
    · refine ⟨file.2, List.mem_map.mpr ⟨file, listed, ?_⟩⟩
      rw [if_neg here]
  · exact ⟨file.2, List.mem_append_left _ listed⟩

/-- No directory goes away. -/
theorem isDirectory_write {directory : List String} (was : files.isDirectory directory = true) :
    (files.write parts content).isDirectory directory = true := by
  unfold isDirectory at was ⊢
  rw [Bool.or_eq_true] at was ⊢
  refine was.imp_right fun below => ?_
  obtain ⟨file, listed, inside⟩ := List.any_eq_true.mp below
  obtain ⟨held, listed⟩ := exists_mem_write listed
  exact List.any_eq_true.mpr ⟨_, listed, inside⟩

/-! ## The places of a path -/

/-- What some parts name lies at those parts. -/
theorem parts_at? (parts : List String) : (files.at? parts).parts = parts := by
  unfold at?
  split
  · rfl
  split
  · rfl
  split <;> rfl

/-- Where a file was written there is a file. -/
theorem at?_write_self (inside : isOutside parts = false) :
    (files.write parts content).at? parts = .file parts content := by
  have device : ¬ (parts = nullDevice ∨ parts = fullDevice ∨ parts = outputDevice) := by
    rintro (rfl | rfl | rfl) <;> cases inside
  rw [at?, if_neg device, lookup_write_self inside]

/-- A directory is no file, and so it does not become one by a write to another place. -/
theorem at?_write_of_directory (apart : other ≠ parts)
    (was : (files.at? other).isDirectory = true) :
    (files.write parts content).at? other = files.at? other := by
  unfold at? at was ⊢
  rw [lookup_write_of_ne apart]
  by_cases device : other = nullDevice ∨ other = fullDevice ∨ other = outputDevice
  · rw [if_pos device] at was
    cases was
  rw [if_neg device] at was ⊢
  cases held : files.lookup other with
  | some _ =>
      simp only [held] at was
      cases was
  | none =>
      simp only [held] at was
      by_cases directory : files.isDirectory other = true
      · rw [if_neg device]
        simp only [directory, isDirectory_write directory]
      · rw [if_neg directory] at was
        cases was

/-- A path goes on from directories alone. -/
theorem walk_of_not_directory {place goal : Place} {rest : List String}
    (stops : place.isDirectory = false) (walked : files.walk place rest = .ok goal) :
    rest = [] ∧ goal = place := by
  cases rest with
  | nil =>
      cases walked
      exact ⟨rfl, rfl⟩
  | cons part rest =>
      cases place with
      | directory _ => cases stops
      | file _ _ => cases walked
      | vacant _ => cases walked

/-- A step from a directory stays in directories, or goes to the place of one part more. -/
theorem walk_directory_cons (directory : List String) (part : String) (rest : List String) :
    (∃ next, ∀ files : Files, files.walk (.directory directory) (part :: rest) =
      files.walk (.directory next) rest) ∨
    (∀ files : Files, files.walk (.directory directory) (part :: rest) = .error .nameTooLong) ∨
    ∀ files : Files, files.walk (.directory directory) (part :: rest) =
      files.walk (files.at? (directory ++ [part])) rest := by
  by_cases here : part = "" ∨ part = "."
  · exact Or.inl ⟨directory, fun files => by rw [walk, if_pos here]⟩
  by_cases up : part = ".."
  · exact Or.inl ⟨parentParts directory, fun files => by rw [walk, if_neg here, if_pos up]⟩
  by_cases long : maxPartBytes < part.utf8ByteSize
  · refine Or.inr (Or.inl fun files => ?_)
    rw [walk, if_neg here, if_neg up, if_pos long]
    rfl
  · refine Or.inr (Or.inr fun files => ?_)
    rw [walk, if_neg here, if_neg up, if_neg long]

/-- A path that does not end at a directory ends at what its place is found to be, and after a write
to that place it ends there again. -/
theorem walk_write {directory path : List String} {goal : Place}
    (inside : isOutside goal.parts = false) (ends : goal.isDirectory = false)
    (walked : files.walk (.directory directory) path = .ok goal) :
    files.at? goal.parts = goal ∧
      (files.write goal.parts content).walk (.directory directory) path =
        .ok (.file goal.parts content) := by
  induction path generalizing directory with
  | nil =>
      cases walked
      cases ends
  | cons part rest further =>
      rcases walk_directory_cons directory part rest with ⟨next, step⟩ | step | step
      · rw [step] at walked ⊢
        exact further walked
      · cases (step files).symm.trans walked
      · rw [step] at walked ⊢
        cases stops : (files.at? (directory ++ [part])).isDirectory with
        | true =>
            obtain ⟨next, entered⟩ := Place.exists_of_isDirectory stops
            rw [entered] at walked
            obtain ⟨there, again⟩ := further walked
            have apart : directory ++ [part] ≠ goal.parts := by
              intro same
              rw [same, there, ends] at stops
              cases stops
            rw [at?_write_of_directory apart stops, entered]
            exact ⟨there, again⟩
        | false =>
            obtain ⟨rfl, rfl⟩ := walk_of_not_directory stops walked
            rw [parts_at?] at inside ⊢
            rw [at?_write_self inside]
            exact ⟨rfl, rfl⟩

/-- **What is written is read.** Where writing to a path goes to a file of the working directory,
what was written is read from that path. -/
theorem read_write {path : String} (found : files.target path = .ok parts)
    (inside : isOutside parts = false) : (files.write parts content).read path = .ok content := by
  unfold target at found
  split at found
  · obtain ⟨_, _, refused⟩ := Except.bind_eq_ok.mp found
    cases refused
  · obtain ⟨goal, resolved, taken⟩ := Except.bind_eq_ok.mp found
    have ends : goal.isDirectory = false ∧ goal.parts = parts := by
      cases goal with
      | directory _ => cases taken
      | vacant _ =>
          cases taken
          exact ⟨rfl, rfl⟩
      | file place _ =>
          obtain ⟨_, rfl⟩ := Except.check_eq_ok.mp taken
          exact ⟨rfl, rfl⟩
    obtain ⟨ends, rfl⟩ := ends
    have followed : (files.write goal.parts content).resolve path =
        .ok (.file goal.parts content) := by
      unfold resolve follow at resolved ⊢
      split at resolved
      · cases resolved
      rename_i short
      rw [if_neg short]
      split at resolved
      · rename_i root
        rw [if_pos root]
        exact (walk_write inside ends resolved).2
      · rename_i root
        rw [if_neg root]
        exact (walk_write inside ends resolved).2
    exact Except.bind_eq_ok.mpr ⟨_, followed, rfl⟩

end Files

end WasmGas
