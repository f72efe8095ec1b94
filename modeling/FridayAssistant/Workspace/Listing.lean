import FridayAssistant.Lib.Selection
/-!
# Listing a directory of the workspace

`WorkspaceFiles.list_entries` (workspace_files.py:85) reads no more of a directory than it reports,
and one entry to know whether there are others. Names are of an ordered type, paths are relative to
the requested directory, and a directory is what `iterdir` enumerates, in its order.
-/
namespace Friday.Workspace
open Selection

/-- What stands under a name; `size` is that of `lstat`. -/
inductive Node (ν : Type) where
  | symlink
  | file (size : Nat)
  | dir (entries : List (ν × Node ν))

/-- A directory, as far down as a listing looks: no name is used twice. -/
structure Directory (ν : Type) where
  entries : List (ν × Node ν)
  nodup : (entries.map Prod.fst).Nodup
  nested : ∀ name sub, (name, Node.dir sub) ∈ entries → (sub.map Prod.fst).Nodup

inductive EntryType where
  | symlink
  | dir
  | file
  deriving DecidableEq

structure Entry (ν : Type) where
  path : List ν
  type : EntryType
  size : Option Nat
  deriving DecidableEq

section
variable {ν : Type} [LinearOrder ν]

def boundedLexicographicEntries (entries : List (ν × Node ν)) (limit : Nat) : List (ν × Node ν) :=
  if limit = 0 then [] else sortByKey Prod.fst (entries.foldl (keep Prod.fst limit) [])

/-- The paths of the entries of the directory `above`. -/
def below (above : List ν) (entries : List (ν × Node ν)) : List (List ν × Node ν) :=
  entries.map fun e => (above ++ [e.1], e.2)

/-- The loop of `_iter_entries` over the children. -/
def iterChildren (limit : Nat) : List (List ν × Node ν) → List (ν × Node ν) → List (List ν × Node ν)
  | result, [] => result
  | result, (name, node) :: children =>
    let result := result ++ [([name], node)]
    match node with
    | .dir sub =>
      let result := result ++ below [name] (boundedLexicographicEntries sub (limit - result.length))
      if limit ≤ result.length then result else iterChildren limit result children
    | _ => iterChildren limit result children

def iterEntries (directory : Directory ν) (recursive : Bool) (limit : Nat) :
    List (List ν × Node ν) :=
  let children := boundedLexicographicEntries directory.entries limit
  if recursive then iterChildren limit [] children else below [] children

def entry : List ν × Node ν → Entry ν
  | (path, .symlink) => ⟨path, .symlink, none⟩
  | (path, .dir _) => ⟨path, .dir, none⟩
  | (path, .file size) => ⟨path, .file, some size⟩

/-- The loop of `list_entries`. -/
def report (maxListEntries : Nat) : List (Entry ν) → List (List ν × Node ν) → List (Entry ν) × Bool
  | entries, [] => (entries, false)
  | entries, path :: paths =>
    if maxListEntries ≤ entries.length then (entries, true)
    else report maxListEntries (entries ++ [entry path]) paths

/-- `list_entries` of a path that is a directory: `entries` and `truncated`. -/
def listEntries (maxListEntries : Nat) (directory : Directory ν) (recursive : Bool) :
    List (Entry ν) × Bool :=
  report maxListEntries [] (iterEntries directory recursive (maxListEntries + 1))

/-- A child and, if it is a directory, its children in name order. -/
def withChildren : ν × Node ν → List (List ν × Node ν)
  | (name, .dir sub) => ([name], .dir sub) :: below [name] (sortByKey Prod.fst sub)
  | (name, node) => [([name], node)]

/-- What a listing without a limit would be. -/
def completeListing (directory : Directory ν) (recursive : Bool) : List (Entry ν) :=
  let children := sortByKey Prod.fst directory.entries
  (if recursive then children.flatMap withChildren else below [] children).map entry

end

section
variable {ν : Type} [LinearOrder ν] {entries : List (ν × Node ν)} {limit : Nat}

theorem boundedLexicographicEntries_eq (hnodup : (entries.map Prod.fst).Nodup) :
    boundedLexicographicEntries entries limit = (sortByKey Prod.fst entries).take limit := by
  unfold boundedLexicographicEntries
  split
  · next hzero => rw [hzero, List.take_zero]
  · next hpos => exact sortByKey_foldl_keep (Nat.pos_of_ne_zero hpos) hnodup

/-- What the loop returns is right up to the limit; behind a directory that exhausts it there may be
more children, without theirs. -/
theorem take_iterChildren : ∀ {children : List (ν × Node ν)} (result : List (List ν × Node ν)),
    (∀ name sub, (name, Node.dir sub) ∈ children → (sub.map Prod.fst).Nodup) →
    (iterChildren limit result children).take limit = (result ++ children.flatMap withChildren).take limit
  | [], result, _ => by simp [iterChildren]
  | (name, node) :: children, result, hnodup => by
    have hlater : ∀ name sub, (name, Node.dir sub) ∈ children → (sub.map Prod.fst).Nodup :=
      fun name sub hmem => hnodup name sub (List.mem_cons_of_mem _ hmem)
    cases node with
    | symlink | file size => simp [iterChildren, withChildren, take_iterChildren _ hlater]
    | dir sub =>
      have hsub : below [name] (boundedLexicographicEntries sub (limit - (result ++ [([name], Node.dir sub)]).length)) =
          (below [name] (sortByKey Prod.fst sub)).take (limit - (result ++ [([name], Node.dir sub)]).length) := by
        rw [boundedLexicographicEntries_eq (hnodup name sub List.mem_cons_self), below, below, List.map_take]
      have hall : result ++ ((name, Node.dir sub) :: children).flatMap withChildren =
          (result ++ [([name], Node.dir sub)]) ++ (below [name] (sortByKey Prod.fst sub) ++ children.flatMap withChildren) := by
        simp [withChildren]
      rw [hall]
      simp only [iterChildren, hsub]
      generalize result ++ [([name], Node.dir sub)] = before
      generalize below [name] (sortByKey Prod.fst sub) = nested
      split
      · next hlong =>
        rw [List.length_append, List.length_take] at hlong
        rw [List.take_append, List.take_append, List.take_take, min_self, List.take_append_of_le_length (by omega)]
      · next hshort =>
        rw [List.length_append, List.length_take] at hshort
        rw [List.take_of_length_le (l := nested) (by omega), take_iterChildren _ hlater, List.append_assoc]

/-- Every child counts for at least one entry, so that the children within the limit are enough. -/
theorem take_flatMap_withChildren : ∀ (limit : Nat) (children : List (ν × Node ν)),
    ((children.take limit).flatMap withChildren).take limit = (children.flatMap withChildren).take limit
  | 0, _ => by simp
  | _ + 1, [] => by simp
  | limit + 1, child :: children => by
    obtain ⟨first, rest, hchild⟩ : ∃ first rest, withChildren child = first :: rest := by
      unfold withChildren
      split <;> exact ⟨_, _, rfl⟩
    have ih := congrArg (List.take (limit - rest.length)) (take_flatMap_withChildren limit children)
    rw [List.take_take, List.take_take, min_eq_left (Nat.sub_le _ _)] at ih
    simp only [List.take_succ_cons, List.flatMap_cons, hchild, List.cons_append, List.take_append, ih]

omit [LinearOrder ν] in
theorem report_eq {maxListEntries : Nat} :
    ∀ {entries : List (Entry ν)} {paths : List (List ν × Node ν)}, entries.length ≤ maxListEntries →
      report maxListEntries entries paths = ((entries ++ paths.map entry).take maxListEntries,
        decide (maxListEntries < (entries ++ paths.map entry).length))
  | entries, [], h => by simp [report, List.take_of_length_le h, h]
  | entries, path :: paths, h => by
    rw [report]
    split
    · next hfull =>
      rw [List.take_append_of_le_length hfull, List.take_of_length_le h]
      simp
      omega
    · next hroom => rw [report_eq (by simp; omega), List.append_assoc]; rfl

/-- **Bounded directory listing equals the truncated full listing**, in whatever order the
directories are enumerated. -/
theorem list_entries_complete (maxListEntries : Nat) (directory : Directory ν) (recursive : Bool) :
    listEntries maxListEntries directory recursive =
      ((completeListing directory recursive).take maxListEntries,
        decide (maxListEntries < (completeListing directory recursive).length)) := by
  -- one more than is reported is right, and tells whether there is more
  have htake : ((iterEntries directory recursive (maxListEntries + 1)).map entry).take
      (maxListEntries + 1) = (completeListing directory recursive).take (maxListEntries + 1) := by
    unfold iterEntries completeListing
    rw [boundedLexicographicEntries_eq directory.nodup, ← List.map_take, ← List.map_take]
    cases recursive with
    | false => simp [below, ← List.map_take, List.take_take]
    | true =>
      simp only [if_true]
      rw [take_iterChildren [] fun name sub hmem => ?_, List.nil_append, take_flatMap_withChildren]
      have hmem := List.mem_of_mem_take hmem
      exact directory.nested name sub ((List.mem_insertionSort _).1 hmem)
  rw [listEntries, report_eq (Nat.zero_le _), List.nil_append]
  have hentries := congrArg (List.take maxListEntries) htake
  have hlength := congrArg List.length htake
  rw [List.take_take, List.take_take, min_eq_left (Nat.le_succ _)] at hentries
  rw [List.length_take, List.length_take] at hlength
  rw [hentries]
  congr 2
  simp only [eq_iff_iff]
  omega

end
end Friday.Workspace
