import ArchInstaller.Python.Views

/-! # Entries below others

Of entries that are addressed by path, those that lie below no other one stand apart from each other:
what they say of a path does not depend on their order. -/

namespace PyData

variable {entries entries' : List (List String × PyValue)} {entry entry' : List String × PyValue}

/-- A path starts with another one and goes on. -/
def LiesBelow (names above : List String) : Prop := above <+: names ∧ above ≠ names

instance {names above : List String} : Decidable (LiesBelow names above) :=
  inferInstanceAs (Decidable (_ ∧ _))

theorem LiesBelow.length_lt {names above : List String} (h : LiesBelow names above) :
    above.length < names.length :=
  lt_of_le_of_ne h.1.length_le fun hlength => h.2 (h.1.eq_of_length hlength)

theorem LiesBelow.of_prefix {names above top : List String} (h : LiesBelow names above)
    (htop : top <+: above) : LiesBelow names top := by
  refine ⟨htop.trans h.1, ?_⟩
  rintro rfl
  exact h.2 (h.1.eq_of_length_le htop.length_le)

/-- An entry with nothing between it and a path says that there is a mapping. -/
theorem provides_of_liesBelow {path : List String} (h : LiesBelow entry.1 path) :
    provides entry path = some .mapping := by
  obtain ⟨⟨rest, hrest⟩, hne⟩ := h
  obtain ⟨names, value⟩ := entry
  subst hrest
  refine provides_above ?_
  rintro rfl
  exact hne (List.append_nil path).symm

/-- Each path stands for one entry. -/
def Distinct (entries : List (List String × PyValue)) : Prop :=
  ∀ entry ∈ entries, ∀ entry' ∈ entries, entry.1 = entry'.1 → entry = entry'

/-- No entry lies at or below another one. -/
def Apart (entries : List (List String × PyValue)) : Prop :=
  ∀ entry ∈ entries, ∀ entry' ∈ entries, entry.1 <+: entry'.1 → entry = entry'

/-! ## Entries that stand apart -/

theorem Apart.eq_of_provides {path : List String} {node : Node} (h : Apart entries)
    (hmem : entry ∈ entries) (hmem' : entry' ∈ entries) (hpre : entry.1 <+: path)
    (hnode : provides entry' path = some node) : entry' = entry := by
  rcases prefix_of_provides hnode with ⟨rest, hrest⟩ | ⟨-, rest, -, hrest⟩
  · rcases List.prefix_or_prefix_of_prefix hpre ⟨rest, hrest.symm⟩ with hentry | hentry
    · exact (h entry hmem entry' hmem' hentry).symm
    · exact h entry' hmem' entry hmem hentry
  · exact (h entry hmem entry' hmem' (hpre.trans ⟨rest, hrest.symm⟩)).symm

theorem Apart.provides_unique {path : List String} {node node' : Node} (h : Apart entries)
    (hmem : entry ∈ entries) (hmem' : entry' ∈ entries) (hnode : provides entry path = some node)
    (hnode' : provides entry' path = some node') : node = node' := by
  rcases prefix_of_provides hnode with ⟨rest, hrest⟩ | ⟨rfl, -⟩
  · rw [h.eq_of_provides hmem hmem' ⟨rest, hrest.symm⟩ hnode', hnode] at hnode'
    exact Option.some.inj hnode'
  · rcases prefix_of_provides hnode' with ⟨rest, hrest⟩ | ⟨rfl, -⟩
    · rw [h.eq_of_provides hmem' hmem ⟨rest, hrest.symm⟩ hnode, hnode'] at hnode
      exact (Option.some.inj hnode).symm
    · rfl

theorem Apart.ofEntries_eq_some_iff {path : List String} {node : Node} (h : Apart entries) :
    View.ofEntries entries path = some node ↔
      ∃ entry ∈ entries, provides entry path = some node := by
  constructor
  · exact fun hnode => List.exists_of_findSome?_eq_some hnode
  · rintro ⟨entry, hmem, hnode⟩
    cases hfind : View.ofEntries entries path with
    | none =>
      rw [View.ofEntries_eq_none.mp hfind entry hmem] at hnode
      cases hnode
    | some node' =>
      obtain ⟨entry', hmem', hnode'⟩ := List.exists_of_findSome?_eq_some hfind
      rw [h.provides_unique hmem' hmem hnode' hnode]

/-- The order of the entries does not matter. -/
theorem Apart.ofEntries_congr (h : Apart entries) (h' : Apart entries')
    (hmem : ∀ entry, entry ∈ entries ↔ entry ∈ entries') :
    View.ofEntries entries = View.ofEntries entries' := by
  funext path
  refine Option.ext fun node => ?_
  rw [h.ofEntries_eq_some_iff, h'.ofEntries_eq_some_iff]
  simp only [hmem]

theorem Apart.ofEntries_append {rest : List String} (h : Apart entries) (hmem : entry ∈ entries) :
    View.ofEntries entries (entry.1 ++ rest) = viewOf entry.2 rest := by
  have hself : provides entry (entry.1 ++ rest) = viewOf entry.2 rest := provides_append
  refine Option.ext fun node => ?_
  rw [h.ofEntries_eq_some_iff, ← hself]
  constructor
  · rintro ⟨entry', hmem', hnode⟩
    obtain rfl := h.eq_of_provides hmem hmem' (List.prefix_append _ _) hnode
    exact hnode
  · exact fun hnode => ⟨entry, hmem, hnode⟩

/-! ## The outermost entries -/

/-- The entries that lie below no other one. -/
def outermost (entries : List (List String × PyValue)) : List (List String × PyValue) :=
  entries.filter fun entry => entries.all fun entry' => ¬ LiesBelow entry.1 entry'.1

theorem mem_outermost : entry ∈ outermost entries ↔
    entry ∈ entries ∧ ∀ entry' ∈ entries, ¬ LiesBelow entry.1 entry'.1 := by
  simp [outermost]

theorem Distinct.apart (h : Distinct entries) : Apart (outermost entries) := by
  intro entry hmem entry' hmem' hpre
  rw [mem_outermost] at hmem hmem'
  refine h entry hmem.1 entry' hmem'.1 ?_
  by_contra hne
  exact hmem'.2 entry hmem.1 ⟨hpre, hne⟩

theorem exists_outermost (hmem : entry ∈ entries) :
    ∃ top ∈ outermost entries, top.1 <+: entry.1 := by
  induction hlength : entry.1.length using Nat.strong_induction_on generalizing entry with
  | _ length ih =>
    by_cases htop : ∀ entry' ∈ entries, ¬ LiesBelow entry.1 entry'.1
    · exact ⟨entry, mem_outermost.mpr ⟨hmem, htop⟩, List.prefix_rfl⟩
    · push Not at htop
      obtain ⟨entry', hmem', hbelow⟩ := htop
      obtain ⟨top, htop, hpre⟩ := ih _ (hlength ▸ hbelow.length_lt) hmem' rfl
      exact ⟨top, htop, hpre.trans hbelow.1⟩

/-- A value on the way to some names is that of an entry that the names lie below. -/
theorem exists_above_of_leaf {names path : List String} {leaf : PyValue} (h : Distinct entries)
    (hbelow : LiesBelow names path)
    (hleaf : View.ofEntries (outermost entries) path = some (.leaf leaf)) :
    ∃ entry ∈ entries, LiesBelow names entry.1 := by
  obtain ⟨top, htop, hnode⟩ := h.apart.ofEntries_eq_some_iff.mp hleaf
  rcases prefix_of_provides hnode with ⟨rest, hrest⟩ | ⟨hmapping, -⟩
  · exact ⟨top, (mem_outermost.mp htop).1, hbelow.of_prefix ⟨rest, hrest.symm⟩⟩
  · cases hmapping

/-- Names that lie below an entry have a value on the way to them, unless the entry is a mapping. -/
theorem exists_leaf_of_above {names : List String} (h : Distinct entries) (hmem : entry ∈ entries)
    (hbelow : LiesBelow names entry.1) (hmappings : ∀ entry ∈ entries, LiesBelow names entry.1 →
      ∀ inner, entry.2 ≠ .dict inner) :
    ∃ top ∈ outermost entries, LiesBelow names top.1 ∧
      View.ofEntries (outermost entries) top.1 = some (.leaf top.2) := by
  obtain ⟨top, htop, hpre⟩ := exists_outermost hmem
  have htopBelow := hbelow.of_prefix hpre
  have hleaf : View.ofEntries (outermost entries) (top.1 ++ []) = viewOf top.2 [] :=
    h.apart.ofEntries_append htop
  rw [List.append_nil, viewOf_nil, Node.of_eq_leaf_iff.mpr
    ⟨rfl, hmappings top (mem_outermost.mp htop).1 htopBelow⟩] at hleaf
  exact ⟨top, htop, htopBelow, hleaf⟩

theorem mem_outermost_append_singleton (hnew : ∀ entry' ∈ entries, ¬ LiesBelow entry.1 entry'.1) :
    entry' ∈ outermost (entries ++ [entry]) ↔
      entry' = entry ∨ (entry' ∈ outermost entries ∧ ¬ LiesBelow entry'.1 entry.1) := by
  have hself : ¬ LiesBelow entry.1 entry.1 := fun h => h.2 rfl
  simp only [mem_outermost, List.mem_append, List.mem_singleton]
  constructor
  · rintro ⟨hmem | rfl, hall⟩
    · exact .inr ⟨⟨hmem, fun other hother => hall other (.inl hother)⟩, hall entry (.inr rfl)⟩
    · exact .inl rfl
  · rintro (rfl | ⟨⟨hmem, hall⟩, hbelow⟩)
    · refine ⟨.inr rfl, ?_⟩
      rintro other (hother | rfl)
      · exact hnew other hother
      · exact hself
    · refine ⟨.inl hmem, ?_⟩
      rintro other (hother | rfl)
      · exact hall other hother
      · exact hbelow

/-- An entry that lies below none of those before it takes the place of those below it. -/
theorem place_outermost (hdistinct : Distinct (entries ++ [entry]))
    (hnew : ∀ entry' ∈ entries, ¬ LiesBelow entry.1 entry'.1)
    (hway : ∀ path, LiesBelow entry.1 path → ∀ value,
      View.ofEntries (outermost entries) path ≠ some (.leaf value)) :
    View.ofEntries (outermost (entries ++ [entry])) =
      (View.ofEntries (outermost entries)).place entry.1 entry.2 := by
  have hapart := hdistinct.apart
  have hapart' : Apart (outermost entries) := by
    refine Distinct.apart fun entry hmem entry' hmem' => ?_
    exact hdistinct entry (List.mem_append_left _ hmem) entry' (List.mem_append_left _ hmem')
  have hentry : entry ∈ outermost (entries ++ [entry]) :=
    (mem_outermost_append_singleton hnew).mpr (.inl rfl)
  funext path
  by_cases hpre : entry.1 <+: path
  · obtain ⟨rest, rfl⟩ := hpre
    rw [hapart.ofEntries_append hentry, View.place_append]
  · rw [View.place_of_not_prefix hpre]
    -- on the way to the entry there is a mapping or nothing before, and a mapping then
    have habove : ∀ {node}, provides entry path = some node →
        node = .mapping ∧ LiesBelow entry.1 path := by
      intro node hnode
      rcases prefix_of_provides hnode with ⟨rest, hrest⟩ | ⟨rfl, rest, hne, hrest⟩
      · exact absurd ⟨rest, hrest.symm⟩ hpre
      · exact ⟨rfl, ⟨rest, hrest.symm⟩, fun heq => hpre (heq ▸ List.prefix_rfl)⟩
    refine Option.ext fun node => ?_
    rw [hapart.ofEntries_eq_some_iff, Option.or_eq_some_iff]
    constructor
    · rintro ⟨entry', hmem', hnode⟩
      rcases (mem_outermost_append_singleton hnew).mp hmem' with rfl | ⟨hmem', -⟩
      · obtain ⟨rfl, hbelow⟩ := habove hnode
        cases hold : View.ofEntries (outermost entries) path with
        | none => exact .inr ⟨rfl, hnode⟩
        | some node' =>
          cases node' with
          | mapping => exact .inl rfl
          | leaf value => exact absurd hold (hway path hbelow value)
      · exact .inl (hapart'.ofEntries_eq_some_iff.mpr ⟨entry', hmem', hnode⟩)
    · rintro (hold | ⟨-, hnode⟩)
      · obtain ⟨entry', hmem', hnode⟩ := hapart'.ofEntries_eq_some_iff.mp hold
        by_cases hbelow : LiesBelow entry'.1 entry.1
        · -- what the entry displaces says of this path only that it is a mapping
          have hpath : LiesBelow entry.1 path ∧ node = .mapping := by
            rcases prefix_of_provides hnode with ⟨rest, hrest⟩ | ⟨rfl, rest, -, hrest⟩
            · exact absurd (hbelow.1.trans ⟨rest, hrest.symm⟩) hpre
            · refine ⟨⟨?_, fun heq => hpre (heq ▸ List.prefix_rfl)⟩, rfl⟩
              exact (List.prefix_or_prefix_of_prefix ⟨rest, hrest.symm⟩ hbelow.1).resolve_right hpre
          rw [hpath.2]
          exact ⟨entry, hentry, provides_of_liesBelow hpath.1⟩
        · exact ⟨entry', (mem_outermost_append_singleton hnew).mpr (.inr ⟨hmem', hbelow⟩), hnode⟩
      · exact ⟨entry, hentry, hnode⟩

end PyData
