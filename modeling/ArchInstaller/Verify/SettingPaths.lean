import ArchInstaller.Config.Provided
import ArchInstaller.Python.Digits

/-! # The paths of absent settings

A field's path tells the field and a list item's path tells the index, so no absent setting is
reported twice. -/

namespace ArchInstaller

open PyData PyText

/-- What ends the name of a field in a path. -/
def isPathSeparator (c : Char) : Bool := c == '.' || c == '['

/-- The rest of a path after a field or an item. -/
def IsPathRest (rest : String) : Prop := ∀ c cs, rest.toList = c :: cs → isPathSeparator c

def isPlainName (name : String) : Bool := name != "" && name.toList.all fun c => !isPathSeparator c

def FieldType.isOptional : FieldType → Bool
  | .optional _ => true
  | _ => false

mutual

def FieldType.wellFormed : FieldType → Bool
  | .str | .int | .bool | .enum _ => true
  | .tuple item => item.wellFormed
  | .optional inner => !inner.isOptional && inner.wellFormed
  | .dataclass declared => !declared.names.isEmpty && declared.wellFormed

/-- Every field has a plain name of its own, no section is empty, and null says at most once that
something is left out. -/
def Fields.wellFormed : Fields → Bool
  | .nil => true
  | .cons name type rest =>
    isPlainName name && !rest.names.contains name && type.wellFormed && rest.wellFormed

end

theorem installerConfig_wellFormed : (FieldType.dataclass InstallerConfig.fields).wellFormed := by
  decide +kernel

theorem takeWhile_isPathRest {rest : String} (h : IsPathRest rest) :
    rest.toList.takeWhile (fun c => !isPathSeparator c) = [] := by
  cases hrest : rest.toList with
  | nil => rfl
  | cons c cs => rw [List.takeWhile_cons_of_neg (by simp [h c cs hrest])]

theorem name_eq_of_append_eq {name name' rest rest' : String} (hname : isPlainName name)
    (hname' : isPlainName name') (hrest : IsPathRest rest) (hrest' : IsPathRest rest')
    (h : name ++ rest = name' ++ rest') : name = name' := by
  have upTo : ∀ {name rest : String}, isPlainName name → IsPathRest rest →
      (name ++ rest).toList.takeWhile (fun c => !isPathSeparator c) = name.toList := by
    intro name rest hname hrest
    rw [isPlainName, Bool.and_eq_true, List.all_eq_true] at hname
    rw [String.toList_append, List.takeWhile_append_of_pos hname.2, takeWhile_isPathRest hrest,
      List.append_nil]
  apply String.toList_injective
  rw [← upTo hname hrest, ← upTo hname' hrest', h]

theorem index_eq_of_append_eq {index index' : Nat} {rest rest' : String}
    (h : toString index ++ ("]" ++ rest) = toString index' ++ ("]" ++ rest')) : index = index' := by
  have upTo : ∀ (index : Nat) (rest : String),
      (toString index ++ ("]" ++ rest)).toList.takeWhile Char.isDigit = Nat.toDigits 10 index := by
    intro index rest
    have hdigits : ∀ c ∈ Nat.toDigits 10 index, c.isDigit := fun c hc =>
      Nat.isDigit_of_mem_toDigits (by decide) (by decide) hc
    rw [String.toList_append, toString_nat_toList, List.takeWhile_append_of_pos hdigits,
      String.toList_append]
    simp
  have hdigits : Nat.toDigits 10 index = Nat.toDigits 10 index' := by
    rw [← upTo index rest, ← upTo index' rest', h]
  exact toDigits_inj hdigits

theorem fieldPath_ne_empty {path name : String} (hname : isPlainName name) :
    fieldPath path name ≠ "" := by
  rw [fieldPath]
  split
  · rintro rfl
    exact absurd hname (by decide)
  · next hpath =>
    intro h
    exact hpath (String.append_eq_empty_iff.mp (String.append_eq_empty_iff.mp h).1).1

theorem fieldPath_append {path name rest : String} (hpath : path ≠ "") :
    fieldPath path name ++ rest = path ++ ("." ++ (name ++ rest)) := by
  rw [fieldPath, if_neg hpath, String.append_assoc, String.append_assoc]

theorem itemPath_ne_empty {path : String} {index : Nat} : itemPath path index ≠ "" := by
  simp [itemPath]

theorem itemPath_append {path rest : String} {index : Nat} :
    itemPath path index ++ rest = path ++ ("[" ++ (toString index ++ ("]" ++ rest))) := by
  simp only [itemPath, String.append_assoc]

theorem fieldPath_inj {path name name' rest rest' : String} (hname : isPlainName name)
    (hname' : isPlainName name') (hrest : IsPathRest rest) (hrest' : IsPathRest rest')
    (h : fieldPath path name ++ rest = fieldPath path name' ++ rest') : name = name' := by
  by_cases hpath : path = ""
  · rw [fieldPath, fieldPath, if_pos hpath, if_pos hpath] at h
    exact name_eq_of_append_eq hname hname' hrest hrest' h
  · rw [fieldPath_append hpath, fieldPath_append hpath] at h
    exact name_eq_of_append_eq hname hname' hrest hrest'
      ((String.append_right_inj _).mp ((String.append_right_inj _).mp h))

theorem itemPath_inj {path rest rest' : String} {index index' : Nat}
    (h : itemPath path index ++ rest = itemPath path index' ++ rest') : index = index' := by
  rw [itemPath_append, itemPath_append] at h
  exact index_eq_of_append_eq ((String.append_right_inj _).mp ((String.append_right_inj _).mp h))

theorem isPathRest_dot {rest : String} : IsPathRest ("." ++ rest) := by
  intro c cs h
  rw [String.toList_append] at h
  cases h
  rfl

theorem isPathRest_bracket {rest : String} : IsPathRest ("[" ++ rest) := by
  intro c cs h
  rw [String.toList_append] at h
  cases h
  rfl

mutual

theorem FieldType.absent_extends : ∀ (type : FieldType), type.wellFormed → ∀ {view : View}
    {path settingPath : String}, path ≠ "" → settingPath ∈ type.absent view path →
      ∃ rest, IsPathRest rest ∧ settingPath = path ++ rest
  | .tuple item, hformed, view, path, settingPath, hpath, hmem => by
    rw [FieldType.absent] at hmem
    split at hmem
    · split at hmem
      · obtain ⟨⟨value, index⟩, -, hmem⟩ := List.mem_flatMap.mp hmem
        obtain ⟨rest, -, rfl⟩ := item.absent_extends hformed itemPath_ne_empty hmem
        exact ⟨_, isPathRest_bracket, itemPath_append⟩
      · cases hmem
    · cases hmem
  | .optional inner, hformed, view, path, settingPath, hpath, hmem => by
    rw [FieldType.wellFormed, Bool.and_eq_true] at hformed
    rw [FieldType.absent] at hmem
    split at hmem
    · cases hmem
    · exact inner.absent_extends hformed.2 hpath hmem
  | .dataclass declared, hformed, view, path, settingPath, hpath, hmem => by
    rw [FieldType.wellFormed, Bool.and_eq_true] at hformed
    obtain ⟨name, -, -, rest, -, rfl⟩ := declared.absent_extends hformed.2 hmem
    exact ⟨_, isPathRest_dot, fieldPath_append hpath⟩
  | .str, _, _, _, _, _, hmem | .int, _, _, _, _, _, hmem | .bool, _, _, _, _, _, hmem
  | .enum _, _, _, _, _, _, hmem => nomatch hmem

theorem Fields.absent_extends : ∀ (declared : Fields), declared.wellFormed → ∀ {view : View}
    {path settingPath : String}, settingPath ∈ declared.absent view path →
      ∃ name ∈ declared.names, isPlainName name ∧ ∃ rest, IsPathRest rest ∧
        settingPath = fieldPath path name ++ rest
  | .nil, _, _, _, _, hmem => nomatch hmem
  | .cons name type rest, hformed, view, path, settingPath, hmem => by
    simp only [Fields.wellFormed, Bool.and_eq_true] at hformed
    obtain ⟨⟨⟨hname, -⟩, htype⟩, hrest⟩ := hformed
    rw [Fields.absent, List.mem_append] at hmem
    rcases hmem with hmem | hmem
    · refine ⟨name, List.mem_cons_self, hname, ?_⟩
      split at hmem
      · refine ⟨"", nofun, ?_⟩
        rw [List.mem_singleton.mp hmem, String.append_empty]
      · exact type.absent_extends htype (fieldPath_ne_empty hname) hmem
    · obtain ⟨name', hmem', h⟩ := rest.absent_extends hrest hmem
      exact ⟨name', List.mem_cons_of_mem _ hmem', h⟩

end

mutual

/-- **No absent setting is reported twice.** -/
theorem FieldType.absent_nodup : ∀ (type : FieldType), type.wellFormed → ∀ (view : View)
    (path : String), (type.absent view path).Nodup
  | .tuple item, hformed, view, path => by
    rw [FieldType.absent]
    split
    · split
      · next items _ =>
        refine List.nodup_flatMap.mpr ⟨fun _ _ => item.absent_nodup hformed _ _, ?_⟩
        have hindices : (items.zipIdx.map Prod.snd).Pairwise (· < ·) := by
          rw [List.zipIdx_map_snd]
          exact List.pairwise_lt_range'
        refine (List.pairwise_map.mp hindices).imp fun {entry entry'} hlt settingPath hmem hmem' => ?_
        obtain ⟨rest, -, rfl⟩ := item.absent_extends hformed itemPath_ne_empty hmem
        obtain ⟨rest', -, h⟩ := item.absent_extends hformed itemPath_ne_empty hmem'
        exact absurd (itemPath_inj h) (by omega)
      · exact List.nodup_nil
    · exact List.nodup_nil
  | .optional inner, hformed, view, path => by
    rw [FieldType.wellFormed, Bool.and_eq_true] at hformed
    rw [FieldType.absent]
    split
    · exact List.nodup_nil
    · exact inner.absent_nodup hformed.2 view path
  | .dataclass declared, hformed, view, path => by
    rw [FieldType.wellFormed, Bool.and_eq_true] at hformed
    exact declared.absent_nodup hformed.2 view path
  | .str, _, _, _ | .int, _, _, _ | .bool, _, _, _ | .enum _, _, _, _ => List.nodup_nil

theorem Fields.absent_nodup : ∀ (declared : Fields), declared.wellFormed → ∀ (view : View)
    (path : String), (declared.absent view path).Nodup
  | .nil, _, _, _ => List.nodup_nil
  | .cons name type rest, hformed, view, path => by
    have hall := hformed
    simp only [Fields.wellFormed, Bool.and_eq_true] at hformed
    obtain ⟨⟨⟨hname, hnew⟩, htype⟩, hrest⟩ := hformed
    rw [Fields.absent]
    refine List.Nodup.append ?_ (rest.absent_nodup hrest view path) ?_
    · split
      · exact List.nodup_singleton _
      · exact type.absent_nodup htype _ _
    · intro settingPath hmem hmem'
      have hfirst : ∃ rest', IsPathRest rest' ∧ settingPath = fieldPath path name ++ rest' := by
        split at hmem
        · exact ⟨"", nofun, by rw [List.mem_singleton.mp hmem, String.append_empty]⟩
        · exact type.absent_extends htype (fieldPath_ne_empty hname) hmem
      obtain ⟨rest', hrest', rfl⟩ := hfirst
      obtain ⟨name', hnames, hname', rest'', hrest'', h⟩ := rest.absent_extends hrest hmem'
      obtain rfl := fieldPath_inj hname hname' hrest' hrest'' h
      simp [hnames] at hnew

end

end ArchInstaller
