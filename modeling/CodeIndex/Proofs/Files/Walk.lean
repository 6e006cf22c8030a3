import CodeIndex.Files.Sources
import CodeIndex.Proofs.Path.Descent

/-!
# Walking directories

A directory stands for the files below it.  Whatever is hidden and whatever is no known language,
what the walk finds is reached from the directory by the names of entries, one after the other.

## Main definitions

* `WellNamed` are the trees in which every name is a step of its own.
* `Reached` says that a path is reached from another one by one or more names.

## Main results

* `reached_of_mem_filesIn`: what the walk finds below a directory is reached from it.
* `eq_or_reached_of_mem_expand`: a file that an argument stands for is the argument or reached from
  it.
-/

namespace CodeIndex.Files

open CodeIndex.Path (descend IsName)

variable {a d : List Char} {name : List Char}

mutual

/-- Whether every entry has a name that is a step of its own. -/
def WellNamed : FileNode → Prop
  | .file _ => True
  | .directory entries => WellNamedEntries entries

/-- Whether some entries and all below them have names that are steps of their own. -/
def WellNamedEntries : List (String × FileNode) → Prop
  | [] => True
  | (name, node) :: rest => IsName name.toList ∧ WellNamed node ∧ WellNamedEntries rest

end

/-- A path that is reached from another one by one or more names. -/
def Reached (path below : List Char) : Prop :=
  ∃ names, names ≠ [] ∧ (∀ name ∈ names, IsName name) ∧ below = descend path names

theorem reached_join (h : IsName name) (path : List Char) : Reached path (Path.join path name) :=
  ⟨[name], List.cons_ne_nil _ _, by simpa, rfl⟩

theorem Reached.trans {below further : List Char} (h : Reached a below)
    (h' : Reached below further) : Reached a further := by
  obtain ⟨names, hne, hnames, rfl⟩ := h
  obtain ⟨names', -, hnames', rfl⟩ := h'
  refine ⟨names ++ names', List.append_ne_nil_of_left_ne_nil hne _, fun name hmem => ?_,
    (List.foldl_append).symm⟩
  exact (List.mem_append.1 hmem).elim (hnames name) (hnames' name)

mutual

theorem reached_of_mem_filesAt {levels : Levels} {path found : List Char} {name : String}
    (hname : IsName name.toList) : ∀ node : FileNode, WellNamed node →
      found ∈ filesAt levels path name node → Reached path found
  | .file _, _, hfound => by
    rw [filesAt] at hfound
    split_ifs at hfound
    · cases hfound
    · rw [List.mem_singleton.1 hfound]
      exact reached_join hname path
  | .directory entries, hnode, hfound => by
    rw [filesAt] at hfound
    split_ifs at hfound
    · cases hfound
    · exact (reached_join hname path).trans (reached_of_mem_filesIn entries hnode hfound)

theorem reached_of_mem_filesIn {levels : Levels} {path found : List Char} :
    ∀ entries, WellNamedEntries entries → found ∈ filesIn levels path entries → Reached path found
  | [], _, hfound => by
    rw [filesIn] at hfound
    cases hfound
  | (name, node) :: rest, hentries, hfound => by
    obtain ⟨hname, hnode, hrest⟩ := hentries
    rw [filesIn, List.mem_append] at hfound
    obtain hfound | hfound := hfound
    · exact reached_of_mem_filesAt hname node hnode hfound
    · exact reached_of_mem_filesIn rest hrest hfound

end

theorem WellNamedEntries.of_lookup {entries : List (String × FileNode)} {name : String}
    {node : FileNode} (h : WellNamedEntries entries) (hlookup : entries.lookup name = some node) :
    WellNamed node := by
  induction entries with
  | nil => cases hlookup
  | cons entry rest ih =>
    obtain ⟨-, hnode, hrest⟩ := h
    rw [List.lookup_cons] at hlookup
    split at hlookup
    · rwa [← Option.some.inj hlookup]
    · exact ih hrest hlookup

theorem WellNamed.below {names : List String} {node below : FileNode} (h : WellNamed node)
    (hbelow : node.below? names = some below) : WellNamed below := by
  induction names generalizing node with
  | nil => rwa [← Option.some.inj hbelow]
  | cons name names ih =>
    obtain ⟨child, hchild, hrest⟩ := Option.bind_eq_some_iff.1 hbelow
    cases node with
    | file content => cases hchild
    | directory entries => exact ih (h.of_lookup hchild) hrest

theorem locate_eq_ok {tree : FileTree} {path : List Char} {here : List String} {node : FileNode}
    (h : tree.locate path = .ok (here, node)) : tree.root.below? here = some node := by
  rw [FileTree.locate] at h
  split at h
  · cases h
  · split at h
    · next hbelow =>
      obtain ⟨rfl, rfl⟩ := Prod.mk.inj (Except.ok.inj h)
      exact hbelow
    · cases h

/-- What walking a directory finds is reached from it by names. -/
theorem reached_of_mem_expand {tree : FileTree} {here : List String}
    {entries : List (String × FileNode)} {found : List (List Char)} {file : List Char}
    (htree : WellNamed tree.root) (hd : tree.locate d = .ok (here, .directory entries))
    (hfound : expand tree d = .ok found) (hfile : file ∈ found) : Reached d file := by
  rw [expand, hd] at hfound
  rw [← Except.ok.inj hfound] at hfile
  exact reached_of_mem_filesIn entries (htree.below (locate_eq_ok hd)) hfile

/-- A file that an argument stands for is the argument itself, or is reached from it. -/
theorem eq_or_reached_of_mem_expand {tree : FileTree} {found : List (List Char)} {file : List Char}
    (htree : WellNamed tree.root) (hfound : expand tree d = .ok found) (hfile : file ∈ found) :
    file = d ∨ Reached d file := by
  cases hd : tree.locate d with
  | error e =>
    rw [expand, hd] at hfound
    cases hfound
  | ok place =>
    obtain ⟨here, node⟩ := place
    cases node with
    | directory entries => exact .inr (reached_of_mem_expand htree hd hfound hfile)
    | file content =>
      rw [expand, hd] at hfound
      rw [← Except.ok.inj hfound] at hfile
      exact .inl (List.mem_singleton.1 hfile)

end CodeIndex.Files
