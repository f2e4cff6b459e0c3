/-
# Table sets as tabular records

The record of a table set is tabular, and it gives the set back where the blob was put together text
by text. A record that is the same but for its numbers is that of the set with these numbers in its
templates.
-/
import VariableRegistry.Proofs.BlobLists
import VariableRegistry.Proofs.TextFormats
import VariableRegistry.Tables.Record

namespace VariableRegistry

namespace Template

variable {t : NumType} {R : (t : NumType) → t.Carrier → t.Carrier → Prop}

/-- The template with other numbers. -/
def mapNumbers (f : t.Carrier → t.Carrier) (x : Template t.Carrier) : Template t.Carrier :=
  ⟨f x.default, f x.min, f x.max⟩

/-- The numbers of a template. -/
def numbers (x : Template t.Carrier) : List t.Carrier := [x.default, x.min, x.max]

theorem agree_mapNumbers {f : t.Carrier → t.Carrier} {x : Template t.Carrier}
    (h : ∀ y ∈ x.numbers, R t y (f y)) :
    (shape t).Agree R x.toRecord (x.mapNumbers f).toRecord := by
  simp only [numbers, List.forall_mem_cons] at h
  obtain ⟨hdefault, hmin, hmax, -⟩ := h
  exact ⟨hdefault, hmin, hmax, trivial⟩

end Template

/-- A descriptor has no numbers of the four types. -/
theorem RawDescriptor.agree_toRecord (R : (t : NumType) → t.Carrier → t.Carrier → Prop)
    (v : RawDescriptor) : shape.Agree R v.toRecord v.toRecord :=
  ⟨rfl, rfl, rfl, rfl, rfl, rfl, rfl, rfl, rfl, trivial⟩

namespace TableSet

variable {s : TableSet} {R : (t : NumType) → t.Carrier → t.Carrier → Prop}
  {f : (t : NumType) → t.Carrier → t.Carrier}

/-! ## Records -/

/-- A table set is its record. -/
theorem ofRecord_toRecord (h : s.blob.Built) : ofRecord s.toRecord = s := by
  have htemplates (t : NumType) : templatesOf (s.templateRecords t) = s.templates.get t := by
    simp [templatesOf, templateRecords, Function.comp_def]
  have hvars : ((s.vars.toList.map RawDescriptor.toRecord).map RawDescriptor.ofRecord).toArray =
      s.vars := by
    simp [Function.comp_def]
  have hparts : ofRecord s.toRecord = { s with
      blob := .ofStrings s.blob.toStrings
      enumWords := s.enumWords.toList.toArray
      templates := ⟨templatesOf (s.templateRecords .int16), templatesOf (s.templateRecords .int32),
        templatesOf (s.templateRecords .float), templatesOf (s.templateRecords .double)⟩
      vars := ((s.vars.toList.map RawDescriptor.toRecord).map RawDescriptor.ofRecord).toArray
      policy := .ofChoice s.policy.toChoice } := rfl
  rw [hparts, h.ofStrings_toStrings, Array.toArray_toList, htemplates, htemplates, htemplates,
    htemplates, hvars, AccessPolicy.ofChoice_toChoice]
  rfl

/-- The words, the texts and the words of the enumerations stand in front of the tables. -/
theorem isTabular_shape : shape.IsTabular := by
  refine ⟨by decide, _, _, (List.take_append_drop 8 _).symm, ?_, ?_⟩
  · decide
  · decide

/-! ## Numbers -/

/-- The numbers in the templates of a number type. -/
def numbers (s : TableSet) (t : NumType) : List t.Carrier :=
  (s.templates.get t).toList.flatMap Template.numbers

/-- The table set with other numbers in its templates. -/
def mapNumbers (s : TableSet) (f : (t : NumType) → t.Carrier → t.Carrier) : TableSet :=
  { s with templates := s.templates.map fun t xs => xs.map (Template.mapNumbers (f t)) }

theorem mem_numbers_of_mem {t : NumType} {x : Template t.Carrier}
    (hx : x ∈ (s.templates.get t).toList) {y : t.Carrier} (hy : y ∈ x.numbers) :
    y ∈ s.numbers t :=
  List.mem_flatMap.2 ⟨x, hx, hy⟩

/-- A set with other numbers has the same record but for these. -/
theorem agree_mapNumbers (hwords : ∀ w, R .int16 w w)
    (h : ∀ t, ∀ x ∈ s.numbers t, R t x (f t x)) :
    shape.Agree R s.toRecord (s.mapNumbers f).toRecord := by
  have htemplates (t : NumType) : (Shape.list (Template.shape t)).Agree R (s.templateRecords t)
      ((s.mapNumbers f).templateRecords t) := by
    have hmap : (s.mapNumbers f).templateRecords t = (s.templates.get t).toList.map
        fun x => (x.mapNumbers (f t)).toRecord := by
      simp [templateRecords, mapNumbers, PerType.map]
    rw [hmap]
    exact Shape.agree_list fun x hx => Template.agree_mapNumbers fun y hy =>
      h t y (mem_numbers_of_mem hx hy)
  have hvars : (Shape.list RawDescriptor.shape).Agree R
      (s.vars.toList.map RawDescriptor.toRecord) (s.vars.toList.map RawDescriptor.toRecord) :=
    Shape.agree_list fun v _ => v.agree_toRecord R
  exact ⟨rfl, rfl, rfl, rfl, rfl, rfl, List.forall₂_same.2 fun _ _ => rfl,
    List.forall₂_same.2 fun w _ => hwords w, htemplates .int16, htemplates .int32,
    htemplates .float, htemplates .double, hvars, ⟨rfl, trivial⟩, trivial⟩

/-! ## Equality -/

theorem templates_mapNumbers (s : TableSet) (f : (t : NumType) → t.Carrier → t.Carrier)
    (t : NumType) : (s.mapNumbers f).templates.get t =
      (s.templates.get t).map (Template.mapNumbers (f t)) :=
  PerType.get_ofFn _ t

theorem sameTemplate_mapNumbers {t : NumType} {g : t.Carrier → t.Carrier}
    {x : Template t.Carrier} (h : ∀ y ∈ x.numbers, t.eq (g y) y = true) :
    sameTemplate t (x.mapNumbers g) x = true := by
  simp only [Template.numbers, List.forall_mem_cons] at h
  simp [sameTemplate, Template.mapNumbers, h]

/-- A set with equal numbers is the same. -/
theorem same_mapNumbers (h : ∀ t, ∀ x ∈ s.numbers t, t.eq (f t x) x = true) :
    (s.mapNumbers f).same s = true := by
  have htemplates (t : NumType) : (s.mapNumbers f).sameTemplates s t = true := by
    rw [sameTemplates, templates_mapNumbers, Bool.and_eq_true, Array.size_map, decide_eq_true_eq]
    refine ⟨rfl, Array.all_eq_true.2 fun i hi => ?_⟩
    rw [Array.getElem_zip, Array.getElem_map]
    exact sameTemplate_mapNumbers fun y hy =>
      h t y (mem_numbers_of_mem (Array.getElem_mem_toList _) hy)
  simp only [same, htemplates]
  simp [mapNumbers]

/-- A set whose numbers stay is itself. -/
theorem mapNumbers_eq_self (h : ∀ t, ∀ x ∈ s.numbers t, f t x = x) : s.mapNumbers f = s := by
  have htemplates : (s.mapNumbers f).templates = s.templates := by
    refine PerType.ext_get fun t => ?_
    rw [templates_mapNumbers]
    refine (Array.map_congr_left fun x hx => ?_).trans (Array.map_id _)
    have hnumber (y : t.Carrier) (hy : y ∈ x.numbers) : f t y = y :=
      h t y (mem_numbers_of_mem (Array.mem_toList_iff.2 hx) hy)
    simp only [Template.mapNumbers, Template.numbers] at hnumber ⊢
    rw [hnumber _ (by simp), hnumber _ (by simp), hnumber _ (by simp)]
    rfl
  cases s
  exact congrArg (fun templates => TableSet.mk _ _ _ _ _ templates _ _) htemplates

end TableSet

end VariableRegistry
