import ArchInstaller.Python.Outermost
import ArchInstaller.Verify.SoundBuilder

/-! # The order of the settings

The builder gets the settings in the order in which their sources were merged. Where a value stands
below another one, the order decides which of them is met first. -/

namespace ArchInstaller

open PyData PyText

/-! ## The claim -/

/-- The path of a value lies below that of another one. -/
def PathBelow (path above : String) : Prop := LiesBelow (split "." path) (split "." above)

instance {path above : String} : Decidable (PathBelow path above) :=
  inferInstanceAs (Decidable (LiesBelow _ _))

/-- No path lies below one whose value is a mapping. -/
def NothingBelowMappings (values : List (String × PyValue)) : Prop :=
  ∀ entry ∈ values, ∀ entry' ∈ values, PathBelow entry'.1 entry.1 →
    ∀ entries, entry.2 ≠ .dict entries

def EndsRefused (outcome : Except BuildError InstallerConfig) : Prop :=
  ∃ error, outcome = .error error ∧ error.IsRefusal

/-- The same configuration, the same missing settings, or another error for both. -/
inductive SameOutcome : Except BuildError InstallerConfig → Except BuildError InstallerConfig → Prop
  | returned (config : InstallerConfig) : SameOutcome (.ok config) (.ok config)
  | missing (settingPaths : List String) :
    SameOutcome (.error (.missingSettings settingPaths)) (.error (.missingSettings settingPaths))
  | refused {error error' : BuildError} : error.IsRefusal → error'.IsRefusal →
    SameOutcome (.error error) (.error error')

/-- The order of the values does not matter, and no value is dropped for one above or below it. -/
structure IndifferentToOrder (values : List (String × PyValue)) : Prop where
  same : ∀ values', values'.Perm values →
    SameOutcome (buildInstallerConfig values) (buildInstallerConfig values')
  loud : ∀ entry ∈ values, ∀ entry' ∈ values, PathBelow entry'.1 entry.1 →
    EndsRefused (buildInstallerConfig values)

/-- What the values provide that lie below no other one. -/
def outermostView (values : List (String × PyValue)) : View :=
  View.ofEntries (outermost (splitEntries (withCredentials values)))

/-- The values that lie below no other one are at declared paths and have the declared types. -/
def OutermostFit (values : List (String × PyValue)) : Prop :=
  (FieldType.dataclass InstallerConfig.fields).Fits (outermostView values)

/-- No value lies below another one, or the values are refused in every order. -/
def IsDecided (values : List (String × PyValue)) : Prop :=
  (∀ entry ∈ values, ∀ entry' ∈ values, ¬ PathBelow entry'.1 entry.1) ∨
    (∃ entry ∈ values, ∃ path ∈ credentialPaths, PathBelow entry.1 path) ∨ ¬ OutermostFit values

/-! ## Nesting in order -/

/-- No value lies below an earlier one. -/
def InOrder (values : List (String × PyValue)) : Prop :=
  values.Pairwise fun entry entry' => ¬ PathBelow entry'.1 entry.1

/-- No value lies below an earlier mapping. -/
def PassesMappings (values : List (String × PyValue)) : Prop :=
  values.Pairwise fun entry entry' => PathBelow entry'.1 entry.1 →
    ∀ entries, entry.2 ≠ .dict entries

theorem ne_nil_of_mem_splitEntries {values : List (String × PyValue)}
    {entry : List String × PyValue} (h : entry ∈ splitEntries values) : entry.1 ≠ [] := by
  obtain ⟨value, -, rfl⟩ := List.mem_map.mp h
  exact split_ne_nil

theorem distinct_splitEntries {values : List (String × PyValue)}
    (hnodup : (values.map Prod.fst).Nodup) : Distinct (splitEntries values) := by
  intro entry hmem entry' hmem' heq
  obtain ⟨value, hvalue, rfl⟩ := List.mem_map.mp hmem
  obtain ⟨value', hvalue', rfl⟩ := List.mem_map.mp hmem'
  have hpath : value.1 = value'.1 := split_injective rfl heq
  rw [List.inj_on_of_nodup_map hnodup hvalue hvalue' hpath]

/-- The whole is a mapping. -/
theorem root_ne_leaf {values : List (String × PyValue)} (hdistinct : Distinct (splitEntries values))
    {leaf : PyValue} :
    View.ofEntries (outermost (splitEntries values)) [] ≠ some (.leaf leaf) := by
  intro hleaf
  obtain ⟨entry, hmem, hnode⟩ := hdistinct.apart.ofEntries_eq_some_iff.mp hleaf
  rcases prefix_of_provides hnode with ⟨rest, hrest⟩ | ⟨hmapping, -⟩
  · have hnil := (List.append_eq_nil_iff.mp hrest.symm).1
    exact ne_nil_of_mem_splitEntries (mem_outermost.mp hmem).1 hnil
  · cases hmapping

theorem root_eq_mapping {values : List (String × PyValue)} (hvalues : values ≠ [])
    (hdistinct : Distinct (splitEntries values)) :
    View.ofEntries (outermost (splitEntries values)) [] = some .mapping := by
  obtain ⟨value, rest, hcons⟩ := List.exists_cons_of_ne_nil hvalues
  have hmem : (split "." value.1, value.2) ∈ splitEntries values := by
    rw [hcons]
    exact List.mem_cons_self
  obtain ⟨top, htop, -⟩ := exists_outermost hmem
  refine hdistinct.apart.ofEntries_eq_some_iff.mpr ⟨top, htop, provides_of_liesBelow ?_⟩
  exact ⟨List.nil_prefix, (ne_nil_of_mem_splitEntries (mem_outermost.mp htop).1).symm⟩

/-- The entries are nested if none lies below an earlier one, and only then. -/
theorem nested_outermost {values : List (String × PyValue)}
    (hdistinct : Distinct (splitEntries values)) (hmappings : PassesMappings values) :
    (InOrder values ∧ ∃ entries, nested values = .ok entries ∧ ∀ path, path ≠ [] →
      viewOf (.dict entries) path = View.ofEntries (outermost (splitEntries values)) path) ∨
    (¬ InOrder values ∧ ∃ error, nested values = .error error ∧ error.IsRefusal) := by
  induction values using List.reverseRecOn with
  | nil =>
    refine .inl ⟨List.Pairwise.nil, [], rfl, fun path hpath => ?_⟩
    obtain ⟨name, path, rfl⟩ := List.exists_cons_of_ne_nil hpath
    rfl
  | append_singleton values entry ih =>
    obtain ⟨settingPath, value⟩ := entry
    have hsplit : splitEntries (values ++ [(settingPath, value)]) =
        splitEntries values ++ [(split "." settingPath, value)] := by simp [splitEntries]
    have hinit : Distinct (splitEntries values) := by
      intro entry hmem entry' hmem'
      rw [hsplit] at hdistinct
      exact hdistinct entry (List.mem_append_left _ hmem) entry' (List.mem_append_left _ hmem')
    rw [PassesMappings, List.pairwise_append] at hmappings
    obtain ⟨hmappings, -, hlast⟩ := hmappings
    have horder_iff : InOrder (values ++ [(settingPath, value)]) ↔ InOrder values ∧
        ∀ entry ∈ splitEntries values, ¬ LiesBelow (split "." settingPath) entry.1 := by
      rw [InOrder, InOrder, List.pairwise_append, splitEntries, List.forall_mem_map]
      simp [PathBelow]
    rw [horder_iff, nested_append, hsplit]
    rcases ih hinit hmappings with ⟨horder, entries, hnested, hview⟩ | ⟨horder, error, hnested, hrefusal⟩
    · rw [hnested]
      rcases @insertAt_cases settingPath value _ entries split_ne_nil with
        ⟨entries', hinsert, hplace, hway⟩ |
        ⟨error, above, below, leaf, hinsert, hrefusal, hnames, hbelow, hleaf⟩
      · have hfree : ∀ path, path ≠ [] → LiesBelow (split "." settingPath) path → ∀ leaf,
            View.ofEntries (outermost (splitEntries values)) path ≠ some (.leaf leaf) := by
          rintro path hpath ⟨⟨rest, hrest⟩, hne⟩ leaf hleaf
          refine hway path rest hrest.symm ?_ leaf ((hview path hpath).trans hleaf)
          rintro rfl
          exact hne ((List.append_nil path).symm.trans hrest)
        have hnew : ∀ entry ∈ splitEntries values, ¬ LiesBelow (split "." settingPath) entry.1 := by
          intro entry hmem hbelow
          obtain ⟨top, htop, htopBelow, hleaf⟩ := exists_leaf_of_above hinit hmem hbelow (by
            rw [splitEntries, List.forall_mem_map]
            exact fun entry hentry => hlast entry hentry _ (List.mem_singleton_self _))
          exact hfree top.1 (ne_nil_of_mem_splitEntries (mem_outermost.mp htop).1) htopBelow _ hleaf
        refine .inl ⟨⟨horder, hnew⟩, entries', hinsert, fun path hpath => ?_⟩
        rw [hplace, place_outermost (hsplit ▸ hdistinct) hnew]
        · exact View.place_congr (hview path hpath)
        · intro path hbelow leaf hleaf
          by_cases hpath : path = []
          · exact root_ne_leaf hinit (hpath ▸ hleaf)
          · exact hfree path hpath hbelow leaf hleaf
      · refine .inr ⟨fun h => ?_, error, hinsert, hrefusal⟩
        have habove : above ≠ [] := by
          rintro rfl
          cases hleaf
        have hbelow : LiesBelow (split "." settingPath) above :=
          ⟨⟨below, hnames.symm⟩, fun heq => hbelow (List.append_right_eq_self.mp (hnames.symm.trans heq.symm))⟩
        rw [hview above habove] at hleaf
        obtain ⟨entry, hmem, hentry⟩ := exists_above_of_leaf hinit hbelow hleaf
        exact h.2 entry hmem hentry
    · exact .inr ⟨fun h => horder h.1, error, by rw [hnested]; rfl, hrefusal⟩

/-! ## With the credentials -/

section

variable {values values' : List (String × PyValue)} {entry : String × PyValue}

/-- The credentials, as given or empty. -/
def credentialEntries (values : List (String × PyValue)) : List (String × PyValue) :=
  credentialPaths.map fun path => (path, (values.lookup path).getD (.str ""))

theorem withCredentials_eq (hnodup : (values.map Prod.fst).Nodup) :
    withCredentials values =
      credentialEntries values ++ values.filter fun entry => entry.1 ∉ credentialPaths := by
  have hkeys : (credentialPaths.map ((·, PyValue.str ""))).map Prod.fst = credentialPaths := by
    simp [List.map_map, Function.comp_def]
  rw [withCredentials, merge_eq (by rw [hkeys]; decide) hnodup, hkeys, List.map_map]
  rfl

theorem mem_credentialEntries (hnodup : (values.map Prod.fst).Nodup) :
    entry ∈ credentialEntries values ↔ entry.1 ∈ credentialPaths ∧
      (entry ∈ values ∨ (entry.1 ∉ values.map Prod.fst ∧ entry.2 = .str "")) := by
  obtain ⟨path, value⟩ := entry
  simp only [credentialEntries, List.mem_map, Prod.mk.injEq]
  constructor
  · rintro ⟨path', hpath, rfl, rfl⟩
    refine ⟨hpath, ?_⟩
    cases hlookup : values.lookup path' with
    | none =>
      refine .inr ⟨?_, rfl⟩
      rintro ⟨entry, hmem, rfl⟩
      simpa using List.lookup_eq_none_iff.mp hlookup entry hmem
    | some value => exact .inl (mem_of_lookup hlookup)
  · rintro ⟨hpath, hmem | ⟨hnone, rfl⟩⟩
    · exact ⟨path, hpath, rfl, by rw [lookup_of_mem hnodup hmem, Option.getD_some]⟩
    · refine ⟨path, hpath, rfl, ?_⟩
      cases hlookup : values.lookup path with
      | none => rfl
      | some value => exact absurd ⟨_, mem_of_lookup hlookup, rfl⟩ hnone

theorem mem_withCredentials (hnodup : (values.map Prod.fst).Nodup) :
    entry ∈ withCredentials values ↔ entry ∈ values ∨
      (entry.1 ∈ credentialPaths ∧ entry.1 ∉ values.map Prod.fst ∧ entry.2 = .str "") := by
  rw [withCredentials_eq hnodup, List.mem_append, mem_credentialEntries hnodup, List.mem_filter,
    decide_eq_true_iff]
  tauto

theorem nodup_withCredentials (values : List (String × PyValue)) :
    ((withCredentials values).map Prod.fst).Nodup :=
  nodup_keys_merge (by decide)

theorem credentials_not_below : ∀ path ∈ credentialPaths, ∀ path' ∈ credentialPaths,
    ¬ PathBelow path path' := by
  decide

theorem path_mem_of_mem_credentialEntries (h : entry ∈ credentialEntries values) :
    entry.1 ∈ credentialPaths := by
  obtain ⟨path, hpath, rfl⟩ := List.mem_map.mp h
  exact hpath

theorem exists_credentialEntry (values : List (String × PyValue)) {path : String}
    (h : path ∈ credentialPaths) :
    ∃ entry ∈ credentialEntries values, entry.1 = path :=
  ⟨_, List.mem_map_of_mem h, rfl⟩

theorem passesMappings_withCredentials (hnodup : (values.map Prod.fst).Nodup)
    (hmappings : NothingBelowMappings values) : PassesMappings (withCredentials values) := by
  rw [withCredentials_eq hnodup, PassesMappings, List.pairwise_append]
  refine ⟨List.pairwise_of_forall_mem_list fun entry hmem entry' hmem' hbelow => ?_,
    List.pairwise_of_forall_mem_list fun entry hmem entry' hmem' => ?_, fun entry hmem entry' hmem' => ?_⟩
  · exact absurd hbelow (credentials_not_below _ (path_mem_of_mem_credentialEntries hmem') _
      (path_mem_of_mem_credentialEntries hmem))
  · exact hmappings entry (List.mem_filter.mp hmem).1 entry' (List.mem_filter.mp hmem').1
  · intro hbelow entries
    rcases ((mem_credentialEntries hnodup).mp hmem).2 with hmem | ⟨-, hempty⟩
    · exact hmappings entry hmem entry' (List.mem_filter.mp hmem').1 hbelow entries
    · rw [hempty]
      nofun

/-- A value below a credential comes behind it in every order. -/
theorem not_inOrder_of_below_credential (hnodup : (values.map Prod.fst).Nodup)
    (hmem : entry ∈ values) {path : String} (hpath : path ∈ credentialPaths)
    (hbelow : PathBelow entry.1 path) : ¬ InOrder (withCredentials values) := by
  rw [withCredentials_eq hnodup, InOrder, List.pairwise_append]
  rintro ⟨-, -, hacross⟩
  obtain ⟨credential, hcredential, rfl⟩ := exists_credentialEntry values hpath
  refine hacross credential hcredential entry (List.mem_filter.mpr ⟨hmem, ?_⟩) hbelow
  rw [decide_eq_true_iff]
  exact fun h => credentials_not_below _ h _ hpath hbelow

theorem inOrder_withCredentials (hnodup : (values.map Prod.fst).Nodup)
    (hcredentials : ∀ entry ∈ values, ∀ path ∈ credentialPaths, ¬ PathBelow entry.1 path)
    (horder : InOrder values) : InOrder (withCredentials values) := by
  rw [withCredentials_eq hnodup, InOrder, List.pairwise_append]
  refine ⟨List.pairwise_of_forall_mem_list fun entry hmem entry' hmem' => ?_,
    horder.sublist List.filter_sublist, fun entry hmem entry' hmem' => ?_⟩
  · exact credentials_not_below _ (path_mem_of_mem_credentialEntries hmem') _
      (path_mem_of_mem_credentialEntries hmem)
  · exact hcredentials entry' (List.mem_filter.mp hmem').1 _ (path_mem_of_mem_credentialEntries hmem)

theorem not_inOrder_of_first (hnodup : ((entry :: values).map Prod.fst).Nodup)
    {entry' : String × PyValue} (hmem : entry' ∈ values) (hbelow : PathBelow entry'.1 entry.1)
    (hpath : entry'.1 ∉ credentialPaths) : ¬ InOrder (withCredentials (entry :: values)) := by
  by_cases hentry : entry.1 ∈ credentialPaths
  · exact not_inOrder_of_below_credential hnodup (List.mem_cons_of_mem _ hmem) hentry hbelow
  · rw [withCredentials_eq hnodup, List.filter_cons_of_pos (by simpa using hentry), InOrder,
      List.pairwise_append, List.pairwise_cons]
    rintro ⟨-, ⟨hfirst, -⟩, -⟩
    exact hfirst entry' (List.mem_filter.mpr ⟨hmem, by simpa using hpath⟩) hbelow

/-! ## The outcome -/

theorem refused_of_not_inOrder (hnodup : (values.map Prod.fst).Nodup)
    (hmappings : NothingBelowMappings values) (horder : ¬ InOrder (withCredentials values)) :
    EndsRefused (buildInstallerConfig values) := by
  rcases nested_outermost (distinct_splitEntries (nodup_withCredentials values))
    (passesMappings_withCredentials hnodup hmappings) with ⟨h, -⟩ | ⟨-, error, hnested, hrefusal⟩
  · exact absurd h horder
  · refine ⟨error, ?_, hrefusal⟩
    rw [buildInstallerConfig, buildRoot, hnested, Building.error_bind, Building.map_error]

/-- In order, what becomes of the values depends on what the outermost ones provide. -/
theorem outcome_of_inOrder (hnodup : (values.map Prod.fst).Nodup)
    (hmappings : NothingBelowMappings values) (horder : InOrder (withCredentials values)) :
    (¬ OutermostFit values ∧ EndsRefused (buildInstallerConfig values)) ∨
    (OutermostFit values ∧ ∃ config, InstallerConfig.fields.Denotes (outermostView values)
      (InstallerConfig.equiv.symm config) ∧ InstallerConfig.fields.absent (outermostView values) "" = [] ∧
        buildInstallerConfig values = .ok config) ∨
    (OutermostFit values ∧ InstallerConfig.fields.absent (outermostView values) "" ≠ [] ∧
      buildInstallerConfig values =
        .error (.missingSettings (InstallerConfig.fields.absent (outermostView values) ""))) := by
  have hdistinct := distinct_splitEntries (nodup_withCredentials values)
  rcases nested_outermost hdistinct (passesMappings_withCredentials hnodup hmappings) with
    ⟨-, entries, hnested, hentries⟩ | ⟨h, -⟩
  · have hroot : outermostView values [] = some .mapping :=
      root_eq_mapping (withCredentials_ne_nil values) hdistinct
    rcases buildRoot_of_nested InstallerConfig.fields hnested (viewOf_nested hroot hentries) with
      ⟨hfits, error, herror, hrefusal⟩ | ⟨hfits, habsent, built, hdenotes, hok⟩ |
      ⟨hfits, habsent, herror⟩
    · exact .inl ⟨hfits, error, by rw [buildInstallerConfig, herror, Building.map_error], hrefusal⟩
    · refine .inr (.inl ⟨hfits, InstallerConfig.equiv built, ?_, habsent, ?_⟩)
      · rw [Equiv.symm_apply_apply]
        exact hdenotes
      · rw [buildInstallerConfig, hok, Building.map_ok]
    · exact .inr (.inr ⟨hfits, habsent, by rw [buildInstallerConfig, herror, Building.map_error]⟩)
  · exact absurd horder h

/-! ## Orders -/

theorem nothingBelowMappings_perm (hperm : values'.Perm values)
    (hmappings : NothingBelowMappings values) : NothingBelowMappings values' := by
  intro entry hmem entry' hmem'
  exact hmappings entry (hperm.mem_iff.mp hmem) entry' (hperm.mem_iff.mp hmem')

theorem mem_withCredentials_perm (hnodup : (values.map Prod.fst).Nodup) (hperm : values'.Perm values)
    (entry : String × PyValue) : entry ∈ withCredentials values' ↔ entry ∈ withCredentials values := by
  have hpaths := hperm.map Prod.fst
  rw [mem_withCredentials (hpaths.nodup_iff.mpr hnodup), mem_withCredentials hnodup, hperm.mem_iff,
    hpaths.mem_iff]

/-- The outermost values provide the same in every order. -/
theorem outermostView_perm (hnodup : (values.map Prod.fst).Nodup) (hperm : values'.Perm values) :
    outermostView values' = outermostView values := by
  refine (distinct_splitEntries (nodup_withCredentials _)).apart.ofEntries_congr
    (distinct_splitEntries (nodup_withCredentials _)).apart fun entry => ?_
  have hmem : ∀ entry, entry ∈ splitEntries (withCredentials values') ↔
      entry ∈ splitEntries (withCredentials values) := by
    intro entry
    simp only [splitEntries, List.mem_map, mem_withCredentials_perm hnodup hperm]
  simp only [mem_outermost, hmem]

theorem outermostFit_perm (hnodup : (values.map Prod.fst).Nodup) (hperm : values'.Perm values) :
    OutermostFit values' ↔ OutermostFit values := by
  rw [OutermostFit, outermostView_perm hnodup hperm, OutermostFit]

/-- Values that do not fit are refused in every order. -/
theorem refused_of_not_fit (hnodup : (values.map Prod.fst).Nodup)
    (hmappings : NothingBelowMappings values) (hfits : ¬ OutermostFit values) :
    EndsRefused (buildInstallerConfig values) := by
  by_cases horder : InOrder (withCredentials values)
  · rcases outcome_of_inOrder hnodup hmappings horder with ⟨-, h⟩ | ⟨h, -⟩ | ⟨h, -⟩
    · exact h
    · exact absurd h hfits
    · exact absurd h hfits
  · exact refused_of_not_inOrder hnodup hmappings horder

theorem refused_of_below_credential (hnodup : (values.map Prod.fst).Nodup)
    (hmappings : NothingBelowMappings values)
    (hcredential : ∃ entry ∈ values, ∃ path ∈ credentialPaths, PathBelow entry.1 path) :
    EndsRefused (buildInstallerConfig values) := by
  obtain ⟨entry, hmem, path, hpath, hbelow⟩ := hcredential
  exact refused_of_not_inOrder hnodup hmappings
    (not_inOrder_of_below_credential hnodup hmem hpath hbelow)

theorem not_refused_of_fit (hnodup : (values.map Prod.fst).Nodup)
    (hmappings : NothingBelowMappings values) (horder : InOrder (withCredentials values))
    (hfits : OutermostFit values) : ¬ EndsRefused (buildInstallerConfig values) := by
  rintro ⟨error, herror, hrefusal⟩
  rcases outcome_of_inOrder hnodup hmappings horder with ⟨h, -⟩ | ⟨-, config, -, -, hok⟩ |
    ⟨-, -, hmissing⟩
  · exact h hfits
  · rw [hok] at herror
    cases herror
  · rw [hmissing] at herror
    cases herror
    exact hrefusal _ rfl

theorem SameOutcome.of_refused {outcome outcome' : Except BuildError InstallerConfig}
    (h : EndsRefused outcome) (h' : EndsRefused outcome') : SameOutcome outcome outcome' := by
  obtain ⟨error, rfl, hrefusal⟩ := h
  obtain ⟨error', rfl, hrefusal'⟩ := h'
  exact .refused hrefusal hrefusal'

theorem SameOutcome.endsRefused_iff {outcome outcome' : Except BuildError InstallerConfig}
    (h : SameOutcome outcome outcome') : EndsRefused outcome ↔ EndsRefused outcome' := by
  cases h with
  | returned | missing => exact .rfl
  | refused hrefusal hrefusal' => exact ⟨fun _ => ⟨_, rfl, hrefusal'⟩, fun _ => ⟨_, rfl, hrefusal⟩⟩

/-- Two orders in which no value is met before one above it. -/
theorem sameOutcome_of_inOrder (hnodup : (values.map Prod.fst).Nodup)
    (hmappings : NothingBelowMappings values) (hperm : values'.Perm values)
    (horder : InOrder (withCredentials values)) (horder' : InOrder (withCredentials values')) :
    SameOutcome (buildInstallerConfig values) (buildInstallerConfig values') := by
  have hnodup' := (hperm.map Prod.fst).nodup_iff.mpr hnodup
  have hmappings' := nothingBelowMappings_perm hperm hmappings
  have hview := outermostView_perm hnodup hperm
  have hfit_iff := outermostFit_perm hnodup hperm
  rcases outcome_of_inOrder hnodup hmappings horder with
    ⟨hfits, hrefused⟩ | ⟨hfits, config, hdenotes, habsent, hok⟩ | ⟨hfits, habsent, herror⟩
  · exact .of_refused hrefused (refused_of_not_fit hnodup' hmappings' (hfit_iff.not.mpr hfits))
  · rcases outcome_of_inOrder hnodup' hmappings' horder' with
      ⟨hnot, -⟩ | ⟨-, config', hdenotes', -, hok'⟩ | ⟨-, habsent', -⟩
    · exact absurd (hfit_iff.mpr hfits) hnot
    · rw [hview] at hdenotes'
      have hsame := InstallerConfig.equiv.symm.injective (hdenotes.unique _ hdenotes')
      rw [hok, hok', hsame]
      exact .returned config'
    · rw [hview] at habsent'
      exact absurd habsent habsent'
  · rcases outcome_of_inOrder hnodup' hmappings' horder' with
      ⟨hnot, -⟩ | ⟨-, config', -, habsent', -⟩ | ⟨-, -, herror'⟩
    · exact absurd (hfit_iff.mpr hfits) hnot
    · rw [hview] at habsent'
      exact absurd habsent' habsent
    · rw [herror, herror', hview]
      exact .missing _

/-- The values with the longest paths first are in order. -/
theorem exists_inOrder (values : List (String × PyValue)) :
    ∃ values', values'.Perm values ∧ InOrder values' := by
  refine ⟨values.insertionSort fun entry entry' =>
    (split "." entry'.1).length ≤ (split "." entry.1).length, List.perm_insertionSort _ _, ?_⟩
  refine (List.pairwise_insertionSort _ values).imp fun hle hbelow => ?_
  exact absurd hbelow.length_lt (not_lt.mpr hle)

end

/-! ## Values above credentials -/

theorem Fields.Fits.typeOf {declared : Fields} {view : View} {name : String} {type : FieldType}
    (h : declared.Fits view) (htype : declared.typeOf name = some type) :
    type.Fits (view.under name) := by
  induction declared using Fields.induction with
  | nil => cases htype
  | leaf name' type' rest _ ih | group name' inner rest _ ih =>
    rw [Fields.typeOf] at htype
    split at htype
    · next hname =>
      cases htype
      exact hname ▸ h.1
    · exact ih h.2 htype

/-- What stands above a credential stands for the section of the credentials. -/
theorem split_eq_of_above_credential {path above : String} (hpath : path ∈ credentialPaths)
    (hbelow : PathBelow path above) : split "." above = ["credentials"] := by
  have hsplit : ∀ path ∈ credentialPaths, (split "." path).take 1 = ["credentials"] ∧
      (split "." path).length = 2 := by decide
  obtain ⟨htake, hlength⟩ := hsplit path hpath
  have hone : (split "." above).length = 1 := by
    have hlt := hbelow.length_lt
    have hpos := List.length_pos_iff.mpr (@split_ne_nil "." above)
    omega
  rw [← htake, ← hone]
  exact List.prefix_iff_eq_take.mp hbelow.1

section

variable {values : List (String × PyValue)}

theorem not_fit_of_above_credential
    (hnodup : (values.map Prod.fst).Nodup) (hmappings : NothingBelowMappings values)
    {entry entry' : String × PyValue} (hmem : entry ∈ values) (hmem' : entry' ∈ values)
    (hbelow : PathBelow entry'.1 entry.1) (hpath : entry'.1 ∈ credentialPaths) :
    ¬ OutermostFit values := by
  intro hfits
  have hnames := split_eq_of_above_credential hpath hbelow
  have hsplit : (split "." entry.1, entry.2) ∈ splitEntries (withCredentials values) :=
    List.mem_map_of_mem ((mem_withCredentials hnodup).mpr (.inl hmem))
  have houtermost : (split "." entry.1, entry.2) ∈ outermost (splitEntries (withCredentials values)) := by
    refine mem_outermost.mpr ⟨hsplit, fun other hother habove => ?_⟩
    have hlt := habove.length_lt
    rw [hnames] at hlt
    exact ne_nil_of_mem_splitEntries hother (List.length_eq_zero_iff.mp (Nat.lt_one_iff.mp hlt))
  have hleaf : outermostView values (split "." entry.1 ++ []) = viewOf entry.2 [] :=
    (distinct_splitEntries (nodup_withCredentials _)).apart.ofEntries_append houtermost
  rw [hnames, viewOf_nil, Node.of_eq_leaf_iff.mpr ⟨rfl, hmappings entry hmem entry' hmem' hbelow⟩] at hleaf
  have hsection := Fields.Fits.typeOf hfits.2.2 (show InstallerConfig.fields.typeOf "credentials" =
    some (.dataclass Credentials.fields) from rfl)
  exact nomatch hsection.1 _ hleaf

/-! ## The claim holds where the values are decided -/

/-- The order in which the value above comes first is refused. -/
theorem exists_refused (hnodup : (values.map Prod.fst).Nodup) (hmappings : NothingBelowMappings values)
    {entry entry' : String × PyValue} (hmem : entry ∈ values) (hmem' : entry' ∈ values)
    (hbelow : PathBelow entry'.1 entry.1) (hpath : entry'.1 ∉ credentialPaths) :
    ∃ values', values'.Perm values ∧ EndsRefused (buildInstallerConfig values') := by
  obtain ⟨before, after, rfl⟩ := List.append_of_mem hmem
  have hperm : (entry :: (before ++ after)).Perm (before ++ entry :: after) := List.perm_middle.symm
  have hnodup' := (hperm.map Prod.fst).nodup_iff.mpr hnodup
  have hrest : entry' ∈ before ++ after := by
    refine (List.mem_cons.mp (hperm.mem_iff.mpr hmem')).resolve_left ?_
    rintro rfl
    exact hbelow.2 rfl
  exact ⟨_, hperm, refused_of_not_inOrder hnodup' (nothingBelowMappings_perm hperm hmappings)
    (not_inOrder_of_first hnodup' hrest hbelow hpath)⟩

theorem exists_not_refused (hnodup : (values.map Prod.fst).Nodup)
    (hmappings : NothingBelowMappings values)
    (hcredentials : ¬ ∃ entry ∈ values, ∃ path ∈ credentialPaths, PathBelow entry.1 path)
    (hfits : OutermostFit values) :
    ∃ values', values'.Perm values ∧ ¬ EndsRefused (buildInstallerConfig values') := by
  obtain ⟨values', hperm, horder⟩ := exists_inOrder values
  have hnodup' := (hperm.map Prod.fst).nodup_iff.mpr hnodup
  refine ⟨values', hperm, not_refused_of_fit hnodup' (nothingBelowMappings_perm hperm hmappings)
    (inOrder_withCredentials hnodup' ?_ horder) ((outermostFit_perm hnodup hperm).mpr hfits)⟩
  intro entry hentry path hpath hbelow
  exact hcredentials ⟨entry, hperm.mem_iff.mp hentry, path, hpath, hbelow⟩

theorem refused_of_decided (hnodup : (values.map Prod.fst).Nodup)
    (hmappings : NothingBelowMappings values)
    (hrefused : (∃ entry ∈ values, ∃ path ∈ credentialPaths, PathBelow entry.1 path) ∨
      ¬ OutermostFit values) : EndsRefused (buildInstallerConfig values) :=
  hrefused.elim (refused_of_below_credential hnodup hmappings) (refused_of_not_fit hnodup hmappings)

theorem indifferentToOrder_of_refused (hnodup : (values.map Prod.fst).Nodup)
    (hmappings : NothingBelowMappings values)
    (hrefused : (∃ entry ∈ values, ∃ path ∈ credentialPaths, PathBelow entry.1 path) ∨
      ¬ OutermostFit values) : IndifferentToOrder values where
  same values' hperm := by
    refine .of_refused (refused_of_decided hnodup hmappings hrefused)
      (refused_of_decided ((hperm.map Prod.fst).nodup_iff.mpr hnodup)
        (nothingBelowMappings_perm hperm hmappings) (hrefused.imp ?_ ?_))
    · rintro ⟨entry, hmem, hbelow⟩
      exact ⟨entry, hperm.mem_iff.mpr hmem, hbelow⟩
    · exact (outermostFit_perm hnodup hperm).not.mpr
  loud _ _ _ _ _ := refused_of_decided hnodup hmappings hrefused

end

/-- A value below the switch for Docker, which is dropped when it comes first. -/
def belowSwitch : List (String × PyValue) :=
  [("docker.enabled.rootless", .bool true), ("docker.enabled", .bool true)]

theorem nothingBelowMappings_belowSwitch : NothingBelowMappings belowSwitch := by
  intro entry hmem _ _ _
  simp only [belowSwitch, List.mem_cons, List.not_mem_nil, or_false] at hmem
  rcases hmem with rfl | rfl <;> exact fun _ => nofun

theorem SameOutcome.reportedMissing_eq {values values' : List (String × PyValue)}
    (h : SameOutcome (buildInstallerConfig values) (buildInstallerConfig values')) :
    reportedMissing values = reportedMissing values' := by
  rw [reportedMissing, reportedMissing]
  generalize buildInstallerConfig values = outcome at h
  generalize buildInstallerConfig values' = outcome' at h
  cases h with
  | returned | missing => rfl
  | @refused error error' hrefusal hrefusal' =>
    cases error with
    | missingSettings settingPaths => exact absurd rfl (hrefusal settingPaths)
    | _ =>
      cases error' with
      | missingSettings settingPaths => exact absurd rfl (hrefusal' settingPaths)
      | _ => rfl

end ArchInstaller
