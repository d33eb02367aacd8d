import Mathlib.Data.List.Basic
import Mathlib.Data.List.Induction

/-! # Trees of files

A file system as a partial map from paths to nodes, and the four ways in which commands change it:
directories are made along a path (`mkdirs`), what is at a path and below it goes (`remove`) or is
replaced by another tree (`mount`), and a tree is merged into another one at a path (`graft`). A
graft leaves what it meets where the two trees hold the same kind of node, which is what a
recursive copy into an existing directory does. -/

namespace Files

variable {ν κ : Type}

/-- What is at a path: a file with its content, or a directory. -/
inductive Node (κ : Type) where
  | file (content : κ)
  | directory
  deriving DecidableEq

abbrev Tree (ν κ : Type) := List ν → Option (Node κ)

namespace Tree

variable (t s : Tree ν κ) (place : List ν)

def subtree : Tree ν κ := fun rest => t (place ++ rest)

variable [DecidableEq ν]

/-- `mkdir -p`. -/
def mkdirs : Tree ν κ := fun path => if path <+: place then some .directory else t path

/-- `rm -rf`. -/
def remove : Tree ν κ := fun path => if place <+: path then none else t path

/-- Another tree covers what is at a place. -/
def mount : Tree ν κ := fun path =>
  match place.isPrefixOf? path with
  | some rest => s rest
  | none => t path

/-- Another tree is merged in at a place, and wins over the files that are there. -/
def graft : Tree ν κ := fun path =>
  match place.isPrefixOf? path with
  | some rest => (s rest).or (t path)
  | none => t path

/-- No file stands where a directory is to be made. -/
def CanMake : Prop := ∀ path, path <+: place → t path = none ∨ t path = some .directory

/-- A tree can be merged in at a place: there is a directory to hold it, and no directory meets a
file. -/
structure Accepts : Prop where
  held : ∀ parent name, place = parent ++ [name] → t parent = some .directory
  sameKind : ∀ rest node node', s rest = some node → t (place ++ rest) = some node' →
    (node = .directory ↔ node' = .directory)

variable {t s place}

omit [DecidableEq ν] in
@[simp] theorem subtree_apply (rest : List ν) : t.subtree place rest = t (place ++ rest) := rfl

theorem isPrefixOf?_append (place rest : List ν) : place.isPrefixOf? (place ++ rest) = some rest :=
  List.isPrefixOf?_eq_some_iff_append_eq.mpr rfl

theorem isPrefixOf?_eq_none {path : List ν} (h : ¬ place <+: path) :
    place.isPrefixOf? path = none := by
  cases hrest : place.isPrefixOf? path with
  | none => rfl
  | some rest => exact absurd ⟨rest, List.isPrefixOf?_eq_some_iff_append_eq.mp hrest⟩ h

@[simp] theorem mount_append (rest : List ν) : t.mount s place (place ++ rest) = s rest := by
  simp only [mount, isPrefixOf?_append]

theorem mount_of_not_below {path : List ν} (h : ¬ place <+: path) :
    t.mount s place path = t path := by
  simp only [mount, isPrefixOf?_eq_none h]

@[simp] theorem graft_append (rest : List ν) :
    t.graft s place (place ++ rest) = (s rest).or (t (place ++ rest)) := by
  simp only [graft, isPrefixOf?_append]

theorem graft_of_not_below {path : List ν} (h : ¬ place <+: path) :
    t.graft s place path = t path := by
  simp only [graft, isPrefixOf?_eq_none h]

/-- What a graft leaves at a path is what was there, or what was merged in. -/
theorem graft_cases (t s : Tree ν κ) (place path : List ν) :
    t.graft s place path = t path ∨ ∃ rest node, path = place ++ rest ∧ s rest = some node ∧
      t.graft s place path = some node := by
  by_cases h : place <+: path
  · obtain ⟨rest, rfl⟩ := h
    rw [graft_append]
    cases hnode : s rest with
    | none => exact .inl (by simp)
    | some node => exact .inr ⟨rest, node, rfl, hnode, by simp⟩
  · exact .inl (graft_of_not_below h)

/-- Where a graft is accepted, a directory stays one. -/
theorem Accepts.directory (h : t.Accepts s place) {path : List ν}
    (hpath : t path = some .directory) : t.graft s place path = some .directory := by
  rcases graft_cases t s place path with heq | ⟨rest, node, rfl, hnode, heq⟩
  · rw [heq, hpath]
  · rw [heq, (h.sameKind rest node .directory hnode hpath).mpr rfl]

theorem mkdirs_of_not_above {path : List ν} (h : ¬ path <+: place) :
    t.mkdirs place path = t path := if_neg h

@[simp] theorem mkdirs_of_above {path : List ν} (h : path <+: place) :
    t.mkdirs place path = some .directory := if_pos h

/-- A directory stays one when others are made. -/
theorem mkdirs_directory {path : List ν} (h : t path = some .directory) :
    t.mkdirs place path = some .directory := by
  by_cases hpath : path <+: place
  · exact mkdirs_of_above hpath
  · rw [mkdirs_of_not_above hpath, h]

/-- Where directories can be made, nothing that was there changes. -/
theorem CanMake.eq_of_some (h : t.CanMake place) {path : List ν} {node : Node κ}
    (hnode : t path = some node) : t.mkdirs place path = some node := by
  by_cases hpath : path <+: place
  · rcases h path hpath with hnone | hdirectory
    · rw [hnone] at hnode
      cases hnode
    · rw [mkdirs_of_above hpath, ← hnode, hdirectory]
  · rw [mkdirs_of_not_above hpath, hnode]

theorem remove_of_below {path : List ν} (h : place <+: path) : t.remove place path = none :=
  if_pos h

theorem remove_of_not_below {path : List ν} (h : ¬ place <+: path) :
    t.remove place path = t path := if_neg h

end Tree

/-- Two places that go apart after a common way have nothing below both. -/
theorem not_prefix_append_of_ne {ν : Type} {way rest rest' : List ν} {name name' : ν}
    (h : name ≠ name') : ¬ way ++ name :: rest <+: way ++ name' :: rest' := by
  rw [List.prefix_append_right_inj, List.cons_prefix_cons]
  exact fun hpre => h hpre.1

/-- Nothing is below two places of which neither is below the other. -/
theorem not_prefix_append {ν : Type} {place place' : List ν} (h : ¬ place <+: place')
    (h' : ¬ place' <+: place) (rest : List ν) : ¬ place <+: place' ++ rest := fun hpre =>
  (List.prefix_or_prefix_of_prefix hpre (List.prefix_append place' rest)).elim h h'

/-- The tree of a whole volume: what holds something is a directory. -/
structure Volume (ν κ : Type) where
  tree : Tree ν κ
  closed : ∀ parent name, tree (parent ++ [name]) ≠ none → tree parent = some .directory

/-- What has something below it is a directory. -/
theorem Volume.directory_of_below (v : Volume ν κ) {path rest : List ν}
    (h : v.tree (path ++ rest) ≠ none) (hne : rest ≠ []) : v.tree path = some .directory := by
  induction rest using List.reverseRecOn with
  | nil => exact absurd rfl hne
  | append_singleton rest name ih =>
    rw [← List.append_assoc] at h
    have hparent := v.closed _ _ h
    cases rest with
    | nil => simpa using hparent
    | cons name' rest => exact ih (by simp [hparent]) (List.cons_ne_nil _ _)

theorem Volume.none_below (v : Volume ν κ) {path rest : List ν}
    (h : v.tree path ≠ some .directory) (hne : rest ≠ []) : v.tree (path ++ rest) = none := by
  by_contra hsome
  exact h (v.directory_of_below hsome hne)

theorem Volume.remove_eq_self [DecidableEq ν] (v : Volume ν κ) {place : List ν}
    (h : v.tree place = none) : v.tree.remove place = v.tree := by
  funext path
  by_cases hpath : place <+: path
  · obtain ⟨rest, rfl⟩ := hpath
    rw [Tree.remove_of_below (List.prefix_append _ _)]
    cases rest with
    | nil => rw [List.append_nil, h]
    | cons name rest => rw [v.none_below (by simp [h]) (List.cons_ne_nil _ _)]
  · exact Tree.remove_of_not_below hpath

/-- Only what is at a place or below it may be another. -/
def OnlyBelow (place : List ν) (t t' : Tree ν κ) : Prop :=
  ∀ path, ¬ place <+: path → t' path = t path

theorem OnlyBelow.mono {place rest : List ν} {t t' : Tree ν κ} (h : OnlyBelow (place ++ rest) t t') :
    OnlyBelow place t t' :=
  fun path hpath => h path fun hpre => hpath ((List.prefix_append _ _).trans hpre)

/-- What one tree has at a place, another has at a path. -/
def Tree.Contains (t' : Tree ν κ) (path : List ν) (t : Tree ν κ) (place : List ν) : Prop :=
  ∀ rest node, t (place ++ rest) = some node → t' (path ++ rest) = some node

theorem Tree.Contains.trans {t t' t'' : Tree ν κ} {place place' place'' : List ν}
    (h' : t''.Contains place'' t' place') (h : t'.Contains place' t place) :
    t''.Contains place'' t place :=
  fun rest node hnode => h' rest node (h rest node hnode)

theorem Tree.Contains.append {t t' : Tree ν κ} {place place' : List ν}
    (h : t'.Contains place' t place) (way : List ν) :
    t'.Contains (place' ++ way) t (place ++ way) := by
  intro rest node hnode
  rw [List.append_assoc] at hnode ⊢
  exact h (way ++ rest) node hnode

/-- A file is written into a directory, over what else than a directory is there. -/
def Volume.withFile [DecidableEq ν] (v : Volume ν κ) (parent : List ν) (name : ν) (content : κ)
    (hparent : v.tree parent = some .directory)
    (hfree : v.tree (parent ++ [name]) ≠ some .directory) : Volume ν κ where
  tree path := if path = parent ++ [name] then some (.file content) else v.tree path
  closed parent' name' h := by
    have hparent' : v.tree parent' = some .directory := by
      by_cases hpath : parent' ++ [name'] = parent ++ [name]
      · obtain ⟨rfl, -⟩ := List.append_inj' hpath rfl
        exact hparent
      · exact v.closed parent' name' (by rwa [if_neg hpath] at h)
    have hne : parent' ≠ parent ++ [name] := fun heq => hfree (heq ▸ hparent')
    rw [if_neg hne, hparent']

/-- Copying a file is writing its content. -/
theorem Volume.withFile_tree [DecidableEq ν] (v : Volume ν κ) {source parent : List ν} {name : ν}
    {content : κ} (hsource : v.tree source = some (.file content))
    (hparent : v.tree parent = some .directory)
    (hfree : v.tree (parent ++ [name]) ≠ some .directory) :
    (v.withFile parent name content hparent hfree).tree =
      v.tree.graft (v.tree.subtree source) (parent ++ [name]) := by
  funext path
  by_cases hpath : parent ++ [name] <+: path
  · obtain ⟨rest, rfl⟩ := hpath
    rw [Tree.graft_append, Tree.subtree_apply, Volume.withFile]
    cases rest with
    | nil => simp [hsource]
    | cons name' rest =>
      rw [v.none_below (by rw [hsource]; simp) (List.cons_ne_nil _ _), Option.none_or]
      simp
  · rw [Tree.graft_of_not_below hpath, Volume.withFile]
    have hne : path ≠ parent ++ [name] := fun heq => hpath (heq ▸ List.prefix_refl _)
    exact if_neg hne

/-- A file that is copied into a directory of the same volume. -/
theorem Volume.accepts_file [DecidableEq ν] (v : Volume ν κ) {source parent : List ν} {name : ν}
    {content : κ} (hsource : v.tree source = some (.file content))
    (hparent : v.tree parent = some .directory)
    (hfree : v.tree (parent ++ [name]) ≠ some .directory) :
    v.tree.Accepts (v.tree.subtree source) (parent ++ [name]) where
  held parent' name' h := by
    obtain ⟨rfl, -⟩ := List.append_inj' h rfl
    exact hparent
  sameKind rest node node' hnode hnode' := by
    cases rest with
    | nil =>
      rw [Tree.subtree_apply, List.append_nil, hsource] at hnode
      rw [List.append_nil] at hnode'
      rw [hnode'] at hfree
      obtain rfl := Option.some.inj hnode
      simpa using fun heq => hfree (congrArg some heq)
    | cons name' rest =>
      rw [Tree.subtree_apply, v.none_below (by rw [hsource]; simp) (List.cons_ne_nil _ _)] at hnode
      cases hnode

/-- Directories that are there are not made again. -/
theorem Tree.mkdirs_eq_self [DecidableEq ν] {t : Tree ν κ} {place : List ν}
    (h : ∀ path, path <+: place → t path = some .directory) : t.mkdirs place = t := by
  funext path
  by_cases hpath : path <+: place
  · rw [Tree.mkdirs_of_above hpath, h path hpath]
  · exact Tree.mkdirs_of_not_above hpath

theorem Volume.directory_of_prefix (v : Volume ν κ) {path place : List ν}
    (h : v.tree place = some .directory) (hpath : path <+: place) :
    v.tree path = some .directory := by
  obtain ⟨rest, rfl⟩ := hpath
  by_cases hrest : rest = []
  · rwa [hrest, List.append_nil] at h
  · exact v.directory_of_below (by simp [h]) hrest

/-- The directories along one path, and nothing else. -/
def Volume.along {ν : Type} (κ : Type) [DecidableEq ν] (path : List ν) : Volume ν κ where
  tree place := if place <+: path then some .directory else none
  closed parent name h := by
    by_cases hpre : parent ++ [name] <+: path
    · exact if_pos ((List.prefix_append parent [name]).trans hpre)
    · exact absurd (if_neg hpre) h

/-- The volume of some entries, each in a directory that is one of them. -/
def Volume.ofEntries [DecidableEq ν] (entries : List (List ν × Node κ))
    (h : ∀ entry ∈ entries, entry.1 ≠ [] → entries.lookup entry.1.dropLast = some .directory) :
    Volume ν κ where
  tree path := entries.lookup path
  closed parent name hsome := by
    obtain ⟨node, hnode⟩ := Option.ne_none_iff_exists'.mp hsome
    obtain ⟨earlier, later, rfl, -⟩ := List.lookup_eq_some_iff.mp hnode
    have hparent := h (parent ++ [name], node) (by simp) (by simp)
    rwa [List.dropLast_concat] at hparent

theorem Volume.mem_of_ofEntries [DecidableEq ν] {entries : List (List ν × Node κ)} {path : List ν}
    {node : Node κ} (h : entries.lookup path = some node) : (path, node) ∈ entries := by
  obtain ⟨earlier, later, rfl, -⟩ := List.lookup_eq_some_iff.mp h
  simp

end Files
