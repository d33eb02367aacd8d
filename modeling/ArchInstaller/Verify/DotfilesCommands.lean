import ArchInstaller.World.Dotfiles

/-! # What the parts of `dotfiles-sync.sh` do

The functions that pushing and pulling share, on any machine of the world. -/

namespace ArchInstaller.DotfilesSync

open Files Interaction PyText Shell

variable {ignored : List String → Bool} {clone : List String} {env : Environment}
  {s s' : State}

/-- Commands that change the files of the clone, or the histories. -/
def Command.changes : Command → Bool
  | .rm _ | .cp .. | .write .. | .gitCommit .. | .gitPush _ => true
  | _ => false

/-- Nothing is copied or committed. -/
def Quiet (exchanges : List (Command × Answer)) : Prop := ∀ x ∈ exchanges, x.1.changes = false

instance (exchanges : List (Command × Answer)) : Decidable (Quiet exchanges) :=
  inferInstanceAs (Decidable (∀ x ∈ exchanges, x.1.changes = false))

theorem Quiet.append {first second : List (Command × Answer)} (h : Quiet first)
    (h' : Quiet second) : Quiet (first ++ second) :=
  List.forall_mem_append.mpr ⟨h, h'⟩

/-- Directories that lead to a place do not change what is there. -/
theorem MadeAlong.below {place : List String} {t t' : Tree String String}
    (h : MadeAlong place.dropLast t t') (hplace : place ≠ []) (rest : List String) :
    t' (place ++ rest) = t (place ++ rest) := by
  refine (h _).resolve_right fun hdirectory => ?_
  have hlength := hdirectory.1.length_le
  rw [List.length_append, List.length_dropLast] at hlength
  have hpositive := List.length_pos_of_ne_nil hplace
  omega

theorem returns_test {word : String} {flag : TestFlag} {place : List String}
    (hword : absolutePlace word = some place) :
    Returns (world ignored clone) s (succeeds (.test flag word)) fun exchanges found s' =>
      Quiet exchanges ∧ s' = s ∧ (found ↔ Finds s.files.tree word place flag) :=
  returns_succeeds fun _ _ hstep => ⟨by simp [Quiet, Command.changes], hstep.1, hstep.2 place hword⟩

theorem returns_needsUpdate {directory : Bool} {first second : String} {place place' : List String}
    (hfirst : absolutePlace first = some place) (hsecond : absolutePlace second = some place') :
    Returns (world ignored clone) s (needsUpdate directory first second) fun exchanges changed s' =>
      Quiet exchanges ∧ s' = s ∧ (changed = false →
        Finds s.files.tree second place' (if directory then .directory else .file) ∧
          s.files.tree.subtree place = s.files.tree.subtree place') := by
  refine (returns_test hsecond).bind fun exchanges there mid hmid => ?_
  obtain ⟨hquiet, rfl, hthere⟩ := hmid
  split
  · next hyes =>
    refine (returns_succeeds (Q := fun exchanges same s' => Quiet exchanges ∧ s' = mid ∧
      (same = true → mid.files.tree.subtree place = mid.files.tree.subtree place'))
      fun answer s' hstep => ?_).bind fun exchanges' same s' hs' => ?_
    · exact ⟨by simp [Quiet, Command.changes], hstep.1,
        (hstep.2 place place' hfirst hsecond).1⟩
    · obtain ⟨hquiet', rfl, hsame⟩ := hs'
      refine returns_ret ⟨by simpa using hquiet.append hquiet', rfl, fun hunchanged => ?_⟩
      exact ⟨hthere.mp hyes, hsame (by simpa using hunchanged)⟩
  · exact returns_ret ⟨by simpa using hquiet, rfl, by simp⟩

/-- What can be read and is the same is not to be copied, unless the target is written as a directory
and is a file. -/
theorem returns_needsUpdate_same {directory : Bool} {first second : String}
    {place place' : List String} (hfirst : absolutePlace first = some place)
    (hsecond : absolutePlace second = some place') (hfound : s.files.tree place ≠ none)
    (hdirectory : directory ↔ s.files.tree place = some .directory)
    (hsame : s.files.tree.subtree place = s.files.tree.subtree place')
    (hread : ∀ rest, s.mayRead (place ++ rest)) (hread' : ∀ rest, s.mayRead (place' ++ rest)) :
    Returns (world ignored clone) s (needsUpdate directory first second) fun _ changed s' =>
      s' = s ∧ (changed → s.files.tree place ≠ some .directory ∧ endsInSlash second) := by
  have hroot := congrFun hsame []
  rw [Tree.subtree_apply, Tree.subtree_apply, List.append_nil, List.append_nil] at hroot
  refine (returns_test hsecond).bind fun exchanges there mid hmid => ?_
  obtain ⟨-, rfl, hthere⟩ := hmid
  split
  · refine (returns_succeeds (Q := fun _ same s' => s' = mid ∧ same = true)
      fun answer s' hstep => ?_).bind fun _ same s' hs' => ?_
    · obtain ⟨heq, hanswer⟩ := hstep
      refine ⟨heq, by_contra fun hfails => ?_⟩
      rcases (hanswer place place' hfirst hsecond).2 hfails with hdiffers | ⟨rest, hunread⟩
      · exact hdiffers hsame
      · exact hunread.elim (absurd (hread rest)) (absurd (hread' rest))
    · obtain ⟨rfl, rfl⟩ := hs'
      exact returns_ret ⟨rfl, by simp⟩
  · next hmissing =>
    refine returns_ret ⟨rfl, fun _ => ?_⟩
    have hfile : mid.files.tree place ≠ some .directory := by
      intro hdir
      refine hmissing (hthere.mpr ?_)
      rw [if_pos (hdirectory.mpr hdir), Finds, ← hroot, hdir]
    refine ⟨hfile, by_contra fun hslash => hmissing (hthere.mpr ?_)⟩
    rw [if_neg fun hyes => hfile (hdirectory.mp hyes), Finds, ← hroot]
    cases hnode : mid.files.tree place with
    | none => exact absurd hnode hfound
    | some node =>
      cases node with
      | file content => exact ⟨⟨content, rfl⟩, hslash⟩
      | directory => exact absurd hnode hfile

/-- Only the files are others. -/
def OnlyFiles (s s' : State) : Prop := s' = { s with files := s'.files }

theorem OnlyFiles.trans {s'' : State} (h : OnlyFiles s s') (h' : OnlyFiles s' s'') :
    OnlyFiles s s'' := by
  unfold OnlyFiles at h h' ⊢
  rw [h', h]

theorem prefix_copyTarget (t : Tree String String) (source destination : List String) :
    destination <+: copyTarget t source destination := by
  rw [copyTarget]
  split
  · exact List.prefix_append _ _
  · exact List.prefix_refl _

/-- A copy is the same as what was copied, where it does not end up inside a directory. -/
theorem returns_copyOver {first second : String} {place place' : List String}
    (hfirst : absolutePlace first = some place) (hsecond : absolutePlace second = some place')
    (hfound : s.files.tree place ≠ none) (hbelow : ¬ place <+: place') (habove : ¬ place' <+: place) :
    Returns (world ignored clone) s (copyOver first second) fun _ _ s' =>
      OnlyFiles s s' ∧ OnlyBelow place' s.files.tree s'.files.tree ∧
        ((s.files.tree place ≠ some .directory → s.files.tree place' ≠ some .directory) →
          s'.files.tree.subtree place = s'.files.tree.subtree place') := by
  have hapart : ∀ rest, ¬ place' <+: place ++ rest := not_prefix_append habove hbelow
  refine (returns_test hfirst).bind fun _ directory mid hmid => ?_
  obtain ⟨-, rfl, hdirectory⟩ := hmid
  split
  · next hyes =>
    have hdir : mid.files.tree place = some .directory := hdirectory.mp hyes
    refine (returns_must (Q := fun _ _ s' => OnlyFiles mid s' ∧ s'.files.tree =
      if endsInSlash second ∧ mid.files.tree place' ≠ some .directory then mid.files.tree
      else mid.files.tree.remove place') fun answer removed hstep hok => ?_).bind
        fun _ _ removed hremoved => ?_
    · obtain ⟨files, rfl, heffect⟩ := hstep
      exact ⟨rfl, (heffect place' hsecond).2 hok⟩
    · obtain ⟨honly, hremoved⟩ := hremoved
      refine returns_must fun answer s' hstep hok => ?_
      obtain ⟨files, rfl, heffect⟩ := hstep
      obtain ⟨hcopied, hwhole⟩ := heffect place place' hfirst hsecond
      obtain ⟨-, ⟨-, haccepted, heq⟩, -⟩ := hwhole hok
      have hnotDirectory : removed.files.tree place' ≠ some .directory := by
        rw [hremoved]
        split
        · next hslash => exact hslash.2
        · simp [Tree.remove_of_below]
      have htarget : copyTarget removed.files.tree place place' = place' := by
        rw [copyTarget]
        split
        · next h => exact absurd h hnotDirectory
        · rfl
      rw [htarget] at hcopied heq haccepted
      have hgone : removed.files.tree = mid.files.tree.remove place' := by
        rw [hremoved]
        split
        · next hslash =>
          rw [if_pos hslash] at hremoved
          refine (mid.files.remove_eq_self ?_).symm
          cases hnode : mid.files.tree place' with
          | none => rfl
          | some node =>
            -- a directory is not copied over a file
            have hsame := haccepted.sameKind [] .directory node
              (by rw [Tree.subtree_apply, List.append_nil, hremoved, hdir])
              (by rw [List.append_nil, hremoved, hnode])
            exact absurd (hnode.trans (congrArg some (hsame.mp rfl))) hslash.2
        · rfl
      refine ⟨honly.trans rfl, ?_, ?_⟩
      · intro path hpath
        rw [hcopied path hpath, hgone, Tree.remove_of_not_below hpath]
      · intro _
        funext rest
        rw [Tree.subtree_apply, Tree.subtree_apply, hcopied _ (hapart rest), heq,
          Tree.graft_append, Tree.subtree_apply, hgone,
          Tree.remove_of_below (List.prefix_append _ _), Option.or_none]
  · next hfile =>
    have hnotDirectory : mid.files.tree place ≠ some .directory :=
      fun h => hfile (hdirectory.mpr h)
    refine returns_must fun answer s' hstep hok => ?_
    obtain ⟨files, rfl, heffect⟩ := hstep
    obtain ⟨hcopied, hwhole⟩ := heffect place place' hfirst hsecond
    obtain ⟨-, ⟨-, -, heq⟩, -⟩ := hwhole hok
    refine ⟨rfl, fun path hpath => hcopied path fun hpre =>
      hpath ((prefix_copyTarget _ _ _).trans hpre), fun hkind => ?_⟩
    have htarget : copyTarget mid.files.tree place place' = place' := by
      rw [copyTarget]
      split
      · next hplace' => exact absurd hplace' (hkind hnotDirectory)
      · rfl
    rw [htarget] at hcopied heq
    funext rest
    rw [Tree.subtree_apply, Tree.subtree_apply, hcopied _ (hapart rest), heq, Tree.graft_append,
      Tree.subtree_apply]
    cases rest with
    | nil => rw [List.append_nil, Option.or_of_isSome (Option.isSome_iff_ne_none.mpr hfound)]
    | cons name rest =>
      rw [mid.files.none_below (hkind hnotDirectory) (List.cons_ne_nil _ _), Option.or_none]

/-- A file is not copied to a word that is written as a directory and is none. -/
theorem returns_copyOver_slash {first second : String} {place place' : List String}
    (hfirst : absolutePlace first = some place) (hsecond : absolutePlace second = some place')
    (hfile : s.files.tree place ≠ some .directory) (hfile' : s.files.tree place' ≠ some .directory)
    (hslash : endsInSlash second) :
    Returns (world ignored clone) s (copyOver first second) fun _ _ _ => False := by
  refine (returns_test hfirst).bind fun _ directory mid hmid => ?_
  obtain ⟨-, rfl, hdirectory⟩ := hmid
  rw [if_neg fun hyes => hfile (hdirectory.mp hyes)]
  refine returns_must fun answer s' hstep hok => ?_
  obtain ⟨files, rfl, heffect⟩ := hstep
  exact (((heffect place place' hfirst hsecond).2 hok).2.2 hslash).elim hfile hfile'

theorem returns_getVersion {place : List String} (hplace : absolutePlace (versionFile env) = some place) :
    Returns (world ignored clone) s (getVersion env) fun _ _ s' => s' = s := by
  refine (returns_test hplace).bind fun first existing mid hmid => ?_
  obtain ⟨-, rfl, -⟩ := hmid
  split
  · rw [map_eq_pure_bind]
    refine (returns_ask (Q := fun _ _ s' => s' = mid) fun _ _ hstep => hstep.1).bind ?_
    rintro _ _ _ rfl
    exact returns_ret rfl
  · exact returns_ret rfl

/-- The checks at the start change nothing. -/
theorem returns_check {command : Command} {message : String} (hquiet : command.changes = false)
    (hstep : ∀ answer s', world ignored clone s command answer s' → s' = s) :
    Returns (world ignored clone) s (do
      let ready ← succeeds command
      Program.onlyIf (!ready) (die message : Script Unit)) fun exchanges _ s' =>
        Quiet exchanges ∧ s' = s := by
  refine (returns_succeeds (Q := fun exchanges _ s' => Quiet exchanges ∧ s' = s)
    fun answer s' h => ⟨by simpa [Quiet] using hquiet, hstep answer s' h⟩).bind ?_
  rintro first ready mid ⟨hfirst, rfl⟩
  refine Returns.onlyIf (fun _ => ?_) fun _ => ⟨by simpa using hfirst, rfl⟩
  exact returns_log.mpr returns_raise

theorem returns_loadFileMappings : Returns (world ignored clone) s (loadFileMappings env)
    fun exchanges _ s' => Quiet exchanges ∧ s' = s := by
  rw [loadFileMappings]
  split
  · exact returns_ret ⟨by simp [Quiet], rfl⟩
  · exact Returns.onlyIf (fun _ => returns_raise) fun _ => ⟨by simp [Quiet], rfl⟩

end ArchInstaller.DotfilesSync
