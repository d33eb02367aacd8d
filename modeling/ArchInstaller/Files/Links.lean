import ArchInstaller.Files.Tree

/-! # Symbolic links

A tree of files in which a file may be a symbolic link, and the way a path takes through it. A
`Walk` tells where a path leads, which places were looked at on the way, and whether every place
that was gone through is a directory. Where two trees agree on the places that were looked at, the
walks are the same. -/

namespace Files

variable {ν κ : Type}

/-- A component of a path. -/
inductive Step (ν : Type) where
  | name (name : ν)
  /-- `..`. -/
  | up
  deriving DecidableEq

/-- What a file is: its content, or a link with the path that it holds. -/
inductive Entry (ν κ : Type) where
  | content (content : κ)
  | link (absolute : Bool) (steps : List (Step ν))
  deriving DecidableEq

abbrev LinkedTree (ν κ : Type) := Tree ν (Entry ν κ)

structure Walk (ν : Type) where
  /-- Nothing where too many links were followed. -/
  place : Option (List ν)
  visited : List (List ν)
  sound : Bool

namespace Walk

/-- A walk that has come past a place. -/
def past (place : List ν) (sound : Bool) (w : Walk ν) : Walk ν :=
  ⟨w.place, place :: w.visited, sound && w.sound⟩

def lost : Walk ν := ⟨none, [], false⟩

@[simp] theorem past_place (place : List ν) (sound : Bool) (w : Walk ν) :
    (w.past place sound).place = w.place := rfl

@[simp] theorem past_visited (place : List ν) (sound : Bool) (w : Walk ν) :
    (w.past place sound).visited = place :: w.visited := rfl

end Walk

namespace Tree

def isDirectory : Option (Node κ) → Bool
  | some .directory => true
  | _ => false

/-- The way from a place; `follow` goes on behind a link. -/
def walk (t : LinkedTree ν κ) (follow : List ν → List (Step ν) → Walk ν) :
    List ν → List (Step ν) → Walk ν
  | here, [] => ⟨some here, [here], true⟩
  | here, .up :: rest => walk t follow here.dropLast rest
  | here, .name name :: rest =>
    match t (here ++ [name]) with
    | some (.file (.link absolute steps)) =>
      (follow (if absolute then [] else here) (steps ++ rest)).past (here ++ [name]) true
    | node => (walk t follow (here ++ [name]) rest).past (here ++ [name])
      (rest.isEmpty || isDirectory node)

/-- The way from a place, along at most so many links. -/
def resolve (t : LinkedTree ν κ) : Nat → List ν → List (Step ν) → Walk ν
  | 0 => t.walk fun _ _ => .lost
  | hops + 1 => t.walk (t.resolve hops)

/-- What is at the end of a way. -/
def found (t : LinkedTree ν κ) (hops : Nat) (here : List ν) (steps : List (Step ν)) :
    Option (Node (Entry ν κ)) :=
  (t.resolve hops here steps).place.bind t

variable {t t' : LinkedTree ν κ} {follow follow' : List ν → List (Step ν) → Walk ν} {hops : Nat}
  {here : List ν} {steps : List (Step ν)}

theorem walk_congr
    (hfollow : ∀ here steps, (∀ path ∈ (follow here steps).visited, t' path = t path) →
      follow' here steps = follow here steps)
    (h : ∀ path ∈ (t.walk follow here steps).visited, t' path = t path) :
    t'.walk follow' here steps = t.walk follow here steps := by
  induction steps generalizing here with
  | nil => rfl
  | cons step rest ih =>
    cases step with
    | up => exact ih h
    | name name =>
      rw [walk] at h
      rw [walk, walk]
      cases hnode : t (here ++ [name]) with
      | none =>
        simp only [hnode, Walk.past_visited, List.forall_mem_cons] at h
        simp only [h.1, ih h.2]
      | some node =>
        rcases node with (content | ⟨absolute, steps⟩) | _ <;>
          simp only [hnode, Walk.past_visited, List.forall_mem_cons] at h
        · simp only [h.1, ih h.2]
        · simp only [h.1, hfollow _ _ h.2]
        · simp only [h.1, ih h.2]

/-- The way is the same in a tree that is the same along it. -/
theorem resolve_congr (h : ∀ path ∈ (t.resolve hops here steps).visited, t' path = t path) :
    t'.resolve hops here steps = t.resolve hops here steps := by
  induction hops generalizing here steps with
  | zero => exact walk_congr (fun _ _ _ => rfl) h
  | succ hops ih => exact walk_congr (fun _ _ h => ih h) h

theorem mem_visited_walk
    (hfollow : ∀ here steps place, (follow here steps).place = some place →
      place ∈ (follow here steps).visited) {place : List ν}
    (h : (t.walk follow here steps).place = some place) :
    place ∈ (t.walk follow here steps).visited := by
  induction steps generalizing here with
  | nil =>
    obtain rfl : here = place := Option.some.inj h
    exact List.mem_cons_self
  | cons step rest ih =>
    cases step with
    | up => exact ih h
    | name name =>
      rw [walk] at h ⊢
      split at h
      · exact List.mem_cons_of_mem _ (hfollow _ _ _ h)
      · exact List.mem_cons_of_mem _ (ih h)

/-- The end of a way was looked at. -/
theorem mem_visited_resolve {place : List ν} (h : (t.resolve hops here steps).place = some place) :
    place ∈ (t.resolve hops here steps).visited := by
  induction hops generalizing here steps place with
  | zero => exact mem_visited_walk (fun _ _ _ h => absurd h (by simp [Walk.lost])) h
  | succ hops ih => exact mem_visited_walk (fun _ _ _ h => ih h) h

theorem found_congr (h : ∀ path ∈ (t.resolve hops here steps).visited, t' path = t path) :
    t'.found hops here steps = t.found hops here steps := by
  rw [found, found, resolve_congr h]
  cases hplace : (t.resolve hops here steps).place with
  | none => rfl
  | some place => exact h place (mem_visited_resolve hplace)

/-- A way on which no link stands leads where it says, and nothing else is looked at. -/
theorem walk_names {names : List ν}
    (h : ∀ way, way <+: names → ∀ absolute steps,
      t (here ++ way) ≠ some (.file (.link absolute steps))) :
    (t.walk follow here (names.map .name)).place = some (here ++ names) ∧
      ∀ path ∈ (t.walk follow here (names.map .name)).visited, here <+: path ∧ path <+: here ++ names := by
  induction names generalizing here with
  | nil =>
    refine ⟨by simp [walk], fun path hpath => ?_⟩
    obtain rfl : path = here := by simpa [walk] using hpath
    simp
  | cons name names ih =>
    have happend : here ++ name :: names = here ++ [name] ++ names := by simp
    have hnext := @ih (here ++ [name]) fun way hway absolute steps => by
      rw [List.append_assoc]
      exact h ([name] ++ way) ((List.prefix_append_right_inj [name]).mpr hway) absolute steps
    rw [happend, List.map_cons, walk]
    split
    · next absolute steps hlink => exact absurd hlink (h [name] ⟨names, rfl⟩ absolute steps)
    · refine ⟨hnext.1, fun path hpath => ?_⟩
      rw [Walk.past_visited, List.mem_cons] at hpath
      rcases hpath with rfl | hpath
      · exact ⟨List.prefix_append _ _, List.prefix_append _ _⟩
      · exact ⟨(List.prefix_append _ _).trans (hnext.2 path hpath).1, (hnext.2 path hpath).2⟩

theorem resolve_names (hops : Nat) {names : List ν}
    (h : ∀ way, way <+: names → ∀ absolute steps,
      t (here ++ way) ≠ some (.file (.link absolute steps))) :
    (t.resolve hops here (names.map .name)).place = some (here ++ names) ∧
      ∀ path ∈ (t.resolve hops here (names.map .name)).visited,
        here <+: path ∧ path <+: here ++ names := by
  cases hops with
  | zero => exact walk_names h
  | succ => exact walk_names h

end Tree

end Files
