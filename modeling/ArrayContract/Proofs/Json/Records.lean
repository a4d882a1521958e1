import ArrayContract.Proofs.Json.Persisted
import Mathlib.Data.List.Count

/-! # Records whose fields may be left out

A record with defaults is described by its fields: each has a name, documents that spell its values,
and the value of the default record (`OptionalField`). A record is read from what is given for each
field in turn (`ReadByFields`), which an object gives under the field's name (`member?_eq_some_iff`)
and an array at the field's place. From this follows what is accepted and what is read
(`ReadByFields.ofJson?_object`, `ofJson?_array`), with no regard to the order of the members or to
members of other names (`ofJson?_congr`). -/

namespace ArrayContract

open Json (member? fields? orDefault mapM_eq_some_iff)
open Persisted (ofJson?)

/-- A field of a record: its name, its value, and the documents that spell a value. -/
structure OptionalField (ρ : Type) where
  {Value : Type}
  name : String
  get : ρ → Value
  Spells : Json → Value → Prop

namespace OptionalField

variable {ρ : Type} (F : OptionalField ρ)

/-- The document spells a value of the field. -/
def Accepts (v : Json) : Prop := ∃ a, F.Spells v a

/-- The record has the value that is given for the field, or that of the default record. -/
structure Takes (defaults x : ρ) (given : Option Json) : Prop where
  spells : ∀ v, given = some v → F.Spells v (F.get x)
  default : given = none → F.get x = F.get defaults

/-- What is given for the field, if anything, is accepted. -/
def Fillable (given : Option Json) : Prop := ∀ v, given = some v → F.Accepts v

variable {F}

theorem Takes.fillable {defaults x : ρ} {given : Option Json} (h : F.Takes defaults x given) :
    F.Fillable given := fun v hv => ⟨F.get x, h.spells v hv⟩

end OptionalField

/-! ## Members and places -/

namespace Json

variable {ms ms' : List (String × Json)} {name : String} {given : Option Json}

/-- The members of a name. -/
def membersOf (ms : List (String × Json)) (name : String) : List (String × Json) :=
  ms.filter (·.1 == name)

theorem mem_membersOf {m : String × Json} : m ∈ membersOf ms name ↔ m ∈ ms ∧ m.1 = name := by
  simp [membersOf]

theorem member?_eq_some_iff : member? ms name = some given ↔
    (membersOf ms name).length ≤ 1 ∧ ∀ v, given = some v ↔ (name, v) ∈ ms := by
  have hmem : ∀ v, (name, v) ∈ ms ↔ (name, v) ∈ membersOf ms name := fun v => by
    rw [mem_membersOf]
    simp
  have hname : ∀ m ∈ membersOf ms name, m.1 = name := fun m hm => (mem_membersOf.mp hm).2
  simp only [hmem]
  unfold member? membersOf at *
  generalize ms.filter (·.1 == name) = found at *
  rcases found with _ | ⟨⟨n, v⟩, _ | ⟨m, rest⟩⟩
  · rcases given with _ | v <;> simp
  · obtain rfl : n = name := hname (n, v) List.mem_cons_self
    rcases given with _ | w
    · simp
    · simp [eq_comm]
  · simp

theorem exists_member? (h : (membersOf ms name).length ≤ 1) : ∃ g, member? ms name = some g := by
  unfold member? membersOf at *
  generalize ms.filter (·.1 == name) = found at *
  rcases found with _ | ⟨m, _ | ⟨n, rest⟩⟩
  · exact ⟨none, rfl⟩
  · exact ⟨some m.2, rfl⟩
  · simp at h

/-- The two lists are made of pairs if every item of the first has a partner. -/
theorem exists_forall₂_and {α β : Type*} {R S : α → β → Prop} {xs : List α} :
    (∃ ys, List.Forall₂ R xs ys ∧ List.Forall₂ S xs ys) ↔ ∀ x ∈ xs, ∃ y, R x y ∧ S x y := by
  induction xs with
  | nil => simp
  | cons x xs ih =>
    rw [List.forall_mem_cons, ← ih]
    constructor
    · rintro ⟨_, hr, hs⟩
      obtain ⟨y, ys, hry, hrys, rfl⟩ := List.forall₂_cons_left_iff.mp hr
      obtain ⟨hsy, hsys⟩ := List.forall₂_cons.mp hs
      exact ⟨⟨y, hry, hsy⟩, ys, hrys, hsys⟩
    · rintro ⟨⟨y, hry, hsy⟩, ys, hrys, hsys⟩
      exact ⟨y :: ys, .cons hry hrys, .cons hsy hsys⟩

variable {ρ : Type} {fields : List (OptionalField ρ)} {S : OptionalField ρ → Option Json → Prop}

/-- An object gives for each field what stands under its name. -/
theorem given_object : (∃ given, fields? (fields.map (·.name)) (object ms) = some given ∧
      List.Forall₂ S fields given) ↔
    ∀ F ∈ fields, ∃ g, member? ms F.name = some g ∧ S F g := by
  refine Iff.trans ?_ exists_forall₂_and
  simp only [fields?, mapM_eq_some_iff, List.forall₂_map_left_iff]

/-- An array gives for each field what stands at its place. -/
theorem given_array {items : List Json} :
    (∃ given, fields? (fields.map (·.name)) (array items) = some given ∧
      List.Forall₂ S fields given) ↔
    items.length ≤ fields.length ∧ ∀ (i : Nat) F, fields[i]? = some F → S F items[i]? := by
  by_cases hl : items.length ≤ fields.length
  · have hgiven : fields? (fields.map (·.name)) (array items) =
        some (items.map some ++ List.replicate (fields.length - items.length) none) := by
      simp [fields?, hl]
    have hlength : fields.length =
        (items.map some ++ List.replicate (fields.length - items.length) none).length := by
      rw [List.length_append, List.length_map, List.length_replicate]
      omega
    have hplace : ∀ i < fields.length,
        (items.map some ++ List.replicate (fields.length - items.length) none)[i]? =
          some items[i]? := by
      intro i hi
      by_cases hi' : i < items.length
      · rw [List.getElem?_append_left (by rwa [List.length_map]), List.getElem?_map,
          List.getElem?_eq_getElem hi', Option.map_some]
      · rw [List.getElem?_append_right (by rw [List.length_map]; omega), List.length_map,
          List.getElem?_replicate, if_pos (by omega), List.getElem?_eq_none (by omega)]
    rw [hgiven]
    generalize items.map some ++ List.replicate (fields.length - items.length) none = given at *
    constructor
    · rintro ⟨_, ⟨⟩, h⟩
      refine ⟨hl, fun i F hF => ?_⟩
      obtain ⟨hi, rfl⟩ := List.getElem?_eq_some_iff.mp hF
      obtain ⟨-, hg⟩ := List.forall₂_iff_get.mp h
      have := hg i hi (hlength ▸ hi)
      rwa [List.get_eq_getElem, List.get_eq_getElem,
        (List.getElem?_eq_some_iff.mp (hplace i hi)).2] at this
    · rintro ⟨-, h⟩
      refine ⟨given, rfl, List.forall₂_iff_get.mpr ⟨hlength, fun i hi hi' => ?_⟩⟩
      rw [List.get_eq_getElem, List.get_eq_getElem,
        (List.getElem?_eq_some_iff.mp (hplace i hi)).2]
      exact h i _ (List.getElem?_eq_getElem hi)
  · simp [fields?, hl]

end Json

open Json (membersOf member?_eq_some_iff exists_member? given_object given_array)

/-! ## Records -/

section Records

variable {ρ : Type} [Persisted ρ] {defaults : ρ} {fields : List (OptionalField ρ)}

/-- A record is read from what is given for each field in turn. -/
structure ReadByFields (ρ : Type) [Persisted ρ] (defaults : ρ)
    (fields : List (OptionalField ρ)) : Prop where
  read : ∀ {v : Json} {x : ρ}, ofJson? v = some x ↔
    ∃ given, fields? (fields.map (·.name)) v = some given ∧
      List.Forall₂ (fun F g => F.Takes defaults x g) fields given
  fill : ∀ {given : List (Option Json)}, List.Forall₂ (fun F g => F.Fillable g) fields given →
    ∃ x, List.Forall₂ (fun F g => F.Takes defaults x g) fields given
  ext : ∀ {x y : ρ}, (∀ F ∈ fields, F.get x = F.get y) → x = y

/-- What a document of a record with defaults is accepted as. -/
structure ReadWithDefaults (ρ : Type) [Persisted ρ] (defaults : ρ)
    (fields : List (OptionalField ρ)) : Prop where
  /-- No field comes twice in an object, and each that comes has a value. -/
  object_accepted : ∀ ms, (∃ x : ρ, ofJson? (.object ms) = some x) ↔
    ∀ F ∈ fields, (membersOf ms F.name).length ≤ 1 ∧ ∀ v, (F.name, v) ∈ ms → F.Accepts v
  /-- The fields that come in an object are taken from it, and the others are as by default. -/
  object_read : ∀ ms (x : ρ), ofJson? (.object ms) = some x → ∀ F ∈ fields,
    (∀ v, (F.name, v) ∈ ms → F.Spells v (F.get x)) ∧
      ((∀ v, (F.name, v) ∉ ms) → F.get x = F.get defaults)
  /-- Neither the order of the members nor those of other names make a difference. -/
  object_congr : ∀ ms ms', (ms.filter fun m => m.1 ∈ fields.map (·.name)).Perm
    (ms'.filter fun m => m.1 ∈ fields.map (·.name)) →
      (ofJson? (.object ms) : Option ρ) = ofJson? (.object ms')
  /-- An array has no more items than there are fields, and each is a value of the field there. -/
  array_accepted : ∀ items, (∃ x : ρ, ofJson? (.array items) = some x) ↔
    items.length ≤ fields.length ∧
      ∀ (i : Nat) F v, fields[i]? = some F → items[i]? = some v → F.Accepts v
  /-- The fields at the front are taken from an array, and the others are as by default. -/
  array_read : ∀ items (x : ρ), ofJson? (.array items) = some x → ∀ (i : Nat) F,
    fields[i]? = some F → (∀ v, items[i]? = some v → F.Spells v (F.get x)) ∧
      (items[i]? = none → F.get x = F.get defaults)
  /-- No other document is accepted. -/
  other : ∀ v : Json, (∀ ms, v ≠ .object ms) → (∀ items, v ≠ .array items) →
    (ofJson? v : Option ρ) = none
  /-- There is no more to a record than its fields. -/
  ext : ∀ x y : ρ, (∀ F ∈ fields, F.get x = F.get y) → x = y

namespace ReadByFields

variable {ms ms' : List (String × Json)} {items : List Json} {x : ρ}

theorem exists_ofJson?_iff (h : ReadByFields ρ defaults fields) {v : Json} :
    (∃ x : ρ, ofJson? v = some x) ↔ ∃ given, fields? (fields.map (·.name)) v = some given ∧
      List.Forall₂ (fun F g => F.Fillable g) fields given := by
  constructor
  · rintro ⟨x, hx⟩
    obtain ⟨given, hg, ht⟩ := h.read.mp hx
    exact ⟨given, hg, ht.imp fun _ _ h => h.fillable⟩
  · rintro ⟨given, hg, hf⟩
    obtain ⟨x, ht⟩ := h.fill hf
    exact ⟨x, h.read.mpr ⟨given, hg, ht⟩⟩

/-- An object is read as a record if no field comes twice and each is taken from the object, or as
by default. -/
theorem ofJson?_object (h : ReadByFields ρ defaults fields) :
    ofJson? (.object ms) = some x ↔ ∀ F ∈ fields, (membersOf ms F.name).length ≤ 1 ∧
      (∀ v, (F.name, v) ∈ ms → F.Spells v (F.get x)) ∧
        ((∀ v, (F.name, v) ∉ ms) → F.get x = F.get defaults) := by
  rw [h.read, given_object]
  refine forall₂_congr fun F _ => ?_
  constructor
  · rintro ⟨g, hg, ht⟩
    obtain ⟨hle, hmem⟩ := member?_eq_some_iff.mp hg
    refine ⟨hle, fun v hv => ht.spells v ((hmem v).mpr hv), fun hnone => ht.default ?_⟩
    exact Option.eq_none_iff_forall_ne_some.mpr fun v hv => hnone v ((hmem v).mp hv)
  · rintro ⟨hle, hspells, hdefault⟩
    obtain ⟨g, hg⟩ := exists_member? hle
    obtain ⟨-, hmem⟩ := member?_eq_some_iff.mp hg
    refine ⟨g, hg, fun v hv => hspells v ((hmem v).mp hv), fun hnone => hdefault fun v hv => ?_⟩
    rw [(hmem v).mpr hv] at hnone
    cases hnone

theorem exists_ofJson?_object (h : ReadByFields ρ defaults fields) :
    (∃ x : ρ, ofJson? (.object ms) = some x) ↔
      ∀ F ∈ fields, (membersOf ms F.name).length ≤ 1 ∧ ∀ v, (F.name, v) ∈ ms → F.Accepts v := by
  rw [h.exists_ofJson?_iff, given_object]
  refine forall₂_congr fun F _ => ?_
  constructor
  · rintro ⟨g, hg, hf⟩
    obtain ⟨hle, hmem⟩ := member?_eq_some_iff.mp hg
    exact ⟨hle, fun v hv => hf v ((hmem v).mpr hv)⟩
  · rintro ⟨hle, haccepts⟩
    obtain ⟨g, hg⟩ := exists_member? hle
    obtain ⟨-, hmem⟩ := member?_eq_some_iff.mp hg
    exact ⟨g, hg, fun v hv => haccepts v ((hmem v).mp hv)⟩

theorem ofJson?_congr (h : ReadByFields ρ defaults fields)
    (hms : (ms.filter fun m => m.1 ∈ fields.map (·.name)).Perm
      (ms'.filter fun m => m.1 ∈ fields.map (·.name))) :
    (ofJson? (.object ms) : Option ρ) = ofJson? (.object ms') := by
  have hmembers : ∀ F ∈ fields, (membersOf ms F.name).Perm (membersOf ms' F.name) := by
    intro F hF
    have hsub : ∀ ms : List (String × Json),
        (ms.filter fun m => m.1 ∈ fields.map (·.name)).filter (·.1 == F.name) =
          membersOf ms F.name := by
      intro ms
      rw [List.filter_filter, membersOf]
      refine List.filter_congr fun m _ => ?_
      by_cases hm : m.1 = F.name
      · simp only [hm, beq_self_eq_true, Bool.true_and, decide_eq_true_eq]
        exact List.mem_map_of_mem hF
      · simp [hm]
    rw [← hsub ms, ← hsub ms']
    exact hms.filter _
  refine Option.ext fun x => ?_
  rw [h.ofJson?_object, h.ofJson?_object]
  refine forall₂_congr fun F hF => ?_
  have hmem : ∀ v, (F.name, v) ∈ ms ↔ (F.name, v) ∈ ms' := fun v => by
    have := (hmembers F hF).mem_iff (a := (F.name, v))
    rwa [Json.mem_membersOf, Json.mem_membersOf, and_iff_left rfl, and_iff_left rfl] at this
  simp only [hmem, (hmembers F hF).length_eq]

/-- An array is read as a record if its items fill the fields at the front, and the others are as by
default. -/
theorem ofJson?_array (h : ReadByFields ρ defaults fields) :
    ofJson? (.array items) = some x ↔ items.length ≤ fields.length ∧
      ∀ (i : Nat) F, fields[i]? = some F → F.Takes defaults x items[i]? := by
  rw [h.read, given_array]

theorem exists_ofJson?_array (h : ReadByFields ρ defaults fields) :
    (∃ x : ρ, ofJson? (.array items) = some x) ↔ items.length ≤ fields.length ∧
      ∀ (i : Nat) F v, fields[i]? = some F → items[i]? = some v → F.Accepts v := by
  rw [h.exists_ofJson?_iff, given_array]
  refine and_congr_right fun _ => forall₂_congr fun i F => ?_
  exact ⟨fun hf v hF => hf hF v, fun hf hF v => hf v hF⟩

theorem ofJson?_other (h : ReadByFields ρ defaults fields) {v : Json} (ho : ∀ ms, v ≠ .object ms)
    (ha : ∀ items, v ≠ .array items) : (ofJson? v : Option ρ) = none := by
  refine Option.eq_none_iff_forall_ne_some.mpr fun x hx => ?_
  obtain ⟨given, hg, -⟩ := h.read.mp hx
  cases v with
  | object ms => exact ho ms rfl
  | array items => exact ha items rfl
  | _ => cases hg

/-- **A record that is read field by field** is read with defaults. -/
theorem readWithDefaults (h : ReadByFields ρ defaults fields) :
    ReadWithDefaults ρ defaults fields where
  object_accepted _ := h.exists_ofJson?_object
  object_read _ _ hx F hF := (h.ofJson?_object.mp hx F hF).2
  object_congr _ _ := h.ofJson?_congr
  array_accepted _ := h.exists_ofJson?_array
  array_read _ _ hx i F hF :=
    have ht := (h.ofJson?_array.mp hx).2 i F hF
    ⟨ht.spells, ht.default⟩
  other _ := h.ofJson?_other
  ext _ _ := h.ext

end ReadByFields

end Records

/-! ## Fields -/

namespace Json

variable {α : Type} {v : Json} {s : String}

/-- The literals of truth values. -/
def SpellsBool (v : Json) (b : Bool) : Prop := v = .bool b

def SpellsString (v : Json) (s : String) : Prop := v = .string s

/-- A name as a string, or as the only member of an object, with the value null. -/
def SpellsName (name : String) (v : Json) : Prop := v = .string name ∨ v = .object [(name, .null)]

theorem bool?_eq_some_iff {b : Bool} : bool? v = some b ↔ SpellsBool v b := by
  cases v <;> simp [bool?, SpellsBool]

theorem string?_eq_some_iff : string? v = some s ↔ SpellsString v s := by
  cases v <;> simp [string?, SpellsString]

theorem named?_eq_some_iff {all : List α} {name : α → String} {x : α} (hall : ∀ x, x ∈ all)
    (hname : ∀ x y, name y = name x → y = x) :
    named? all name v = some x ↔ SpellsName (name x) v := by
  have hfind : ∀ s, all.find? (name · == s) = some x ↔ s = name x := by
    refine fun s => ⟨fun h => ?_, ?_⟩
    · have hs := List.find?_some h
      exact (beq_iff_eq.mp hs).symm
    · rintro rfl
      exact named?_string (hall x) fun y _ => hname x y
  unfold named? SpellsName
  split <;> simp_all

end Json

section Fields

variable {ρ : Type} {defaults : ρ}

/-- A value is read from a field if it is spelled there, or the field is left out and the value is
the default. -/
theorem OptionalField.orDefault_eq_some_iff {F : OptionalField ρ} {read : Json → Option F.Value}
    (hread : ∀ v a, read v = some a ↔ F.Spells v a) {given : Option Json} {x : ρ} :
    orDefault (F.get defaults) read given = some (F.get x) ↔ F.Takes defaults x given := by
  rcases given with _ | v
  · refine ⟨fun h => ⟨nofun, fun _ => (Option.some.inj h).symm⟩, fun h => ?_⟩
    exact congrArg some (h.default rfl).symm
  · refine (hread v _).trans ⟨fun h => ⟨?_, nofun⟩, fun h => h.spells v rfl⟩
    rintro _ ⟨⟩
    exact h

/-- A field that is left out or accepted has a value. -/
theorem OptionalField.Fillable.exists_value {F : OptionalField ρ} {given : Option Json}
    (defaults : ρ) (h : F.Fillable given) : ∃ a, ∀ x, F.get x = a → F.Takes defaults x given := by
  rcases given with _ | v
  · exact ⟨F.get defaults, fun x hx => ⟨nofun, fun _ => hx⟩⟩
  · obtain ⟨a, ha⟩ := h v rfl
    refine ⟨a, fun x hx => ⟨?_, nofun⟩⟩
    rintro _ ⟨⟩
    exact hx ▸ ha

theorem forall₂_three {α β : Type*} {R : α → β → Prop} {a b c : α} {ys : List β} :
    List.Forall₂ R [a, b, c] ys ↔ ∃ x y z, R a x ∧ R b y ∧ R c z ∧ ys = [x, y, z] := by
  constructor
  · intro h
    obtain ⟨x, xs, hx, hxs, rfl⟩ := List.forall₂_cons_left_iff.mp h
    obtain ⟨y, ys, hy, hys, rfl⟩ := List.forall₂_cons_left_iff.mp hxs
    obtain ⟨z, zs, hz, hzs, rfl⟩ := List.forall₂_cons_left_iff.mp hys
    obtain rfl := List.forall₂_nil_left_iff.mp hzs
    exact ⟨x, y, z, hx, hy, hz, rfl⟩
  · rintro ⟨x, y, z, hx, hy, hz, rfl⟩
    exact .cons hx (.cons hy (.cons hz .nil))

/-- A record of three fields. -/
theorem ReadByFields.three [Persisted ρ] {F G H : OptionalField ρ} {readF : Json → Option F.Value}
    {readG : Json → Option G.Value} {readH : Json → Option H.Value}
    (hF : ∀ v a, readF v = some a ↔ F.Spells v a) (hG : ∀ v a, readG v = some a ↔ G.Spells v a)
    (hH : ∀ v a, readH v = some a ↔ H.Spells v a) (mk : F.Value → G.Value → H.Value → ρ)
    (hmk : ∀ a b c, F.get (mk a b c) = a ∧ G.get (mk a b c) = b ∧ H.get (mk a b c) = c)
    (heta : ∀ x, mk (F.get x) (G.get x) (H.get x) = x)
    (hread : ∀ {v : Json} {f g h}, fields? [F.name, G.name, H.name] v = some [f, g, h] →
      ofJson? v = (orDefault (F.get defaults) readF f).bind fun a =>
        (orDefault (G.get defaults) readG g).bind fun b =>
          (orDefault (H.get defaults) readH h).bind fun c => some (mk a b c))
    (hother : ∀ {v : Json}, (∀ f g h, fields? [F.name, G.name, H.name] v ≠ some [f, g, h]) →
      (ofJson? v : Option ρ) = none) :
    ReadByFields ρ defaults [F, G, H] where
  read {v x} := by
    constructor
    · intro hx
      by_cases hv : ∃ f g h, fields? [F.name, G.name, H.name] v = some [f, g, h]
      · obtain ⟨f, g, h, hgiven⟩ := hv
        simp only [hread hgiven, Option.bind_eq_some_iff] at hx
        obtain ⟨a, ha, b, hb, c, hc, hx⟩ := hx
        obtain rfl := Option.some.inj hx
        obtain ⟨hma, hmb, hmc⟩ := hmk a b c
        refine ⟨[f, g, h], hgiven, forall₂_three.mpr ⟨f, g, h, ?_, ?_, ?_, rfl⟩⟩
        · exact (F.orDefault_eq_some_iff hF).mp (hma.symm ▸ ha)
        · exact (G.orDefault_eq_some_iff hG).mp (hmb.symm ▸ hb)
        · exact (H.orDefault_eq_some_iff hH).mp (hmc.symm ▸ hc)
      · rw [hother fun f g h hgiven => hv ⟨f, g, h, hgiven⟩] at hx
        cases hx
    · rintro ⟨_, hgiven, ht⟩
      obtain ⟨f, g, h, hf, hg, hh, rfl⟩ := forall₂_three.mp ht
      rw [hread hgiven, (F.orDefault_eq_some_iff hF).mpr hf, (G.orDefault_eq_some_iff hG).mpr hg,
        (H.orDefault_eq_some_iff hH).mpr hh]
      exact congrArg some (heta x)
  fill ht := by
    obtain ⟨f, g, h, hf, hg, hh, rfl⟩ := forall₂_three.mp ht
    obtain ⟨a, ha⟩ := hf.exists_value defaults
    obtain ⟨b, hb⟩ := hg.exists_value defaults
    obtain ⟨c, hc⟩ := hh.exists_value defaults
    obtain ⟨hma, hmb, hmc⟩ := hmk a b c
    exact ⟨mk a b c, forall₂_three.mpr ⟨f, g, h, ha _ hma, hb _ hmb, hc _ hmc, rfl⟩⟩
  ext {x y} h := by
    rw [← heta x, ← heta y, h F (by simp), h G (by simp), h H (by simp)]

end Fields

/-! ## The two records -/

def CheckPolicy.fields : List (OptionalField CheckPolicy) :=
  [⟨"check_input", CheckPolicy.checkInput, Json.SpellsBool⟩,
    ⟨"check_output", CheckPolicy.checkOutput, Json.SpellsBool⟩,
    ⟨"arity", CheckPolicy.arity, fun v a => Json.SpellsName a.name v⟩]

def ScheduleTags.fields : List (OptionalField ScheduleTags) :=
  [⟨"cachable", ScheduleTags.cachable, Json.SpellsBool⟩,
    ⟨"udf_type", ScheduleTags.category, Json.SpellsString⟩,
    ⟨"batchable", ScheduleTags.batchable, Json.SpellsBool⟩]

theorem CheckPolicy.readByFields : ReadByFields CheckPolicy {} CheckPolicy.fields := by
  have harity : ∀ v (a : Arity), Persisted.ofJson? v = some a ↔ Json.SpellsName a.name v :=
    fun _ _ => Json.named?_eq_some_iff (by rintro ⟨⟩ <;> decide) (by rintro ⟨⟩ ⟨⟩ <;> decide)
  refine .three (fun _ _ => Json.bool?_eq_some_iff) (fun _ _ => Json.bool?_eq_some_iff) harity
    CheckPolicy.mk (fun _ _ _ => ⟨rfl, rfl, rfl⟩) (fun _ => rfl) ?_ ?_
  · intro v f g h hgiven
    show CheckPolicy.ofJson? v = _
    unfold CheckPolicy.ofJson?
    rw [show fields? fieldNames v = _ from hgiven]
    rfl
  · intro v hv
    show CheckPolicy.ofJson? v = none
    unfold CheckPolicy.ofJson?
    split
    · next hgiven => exact absurd hgiven (hv _ _ _)
    · rfl

theorem ScheduleTags.readByFields : ReadByFields ScheduleTags {} ScheduleTags.fields := by
  refine .three (fun _ _ => Json.bool?_eq_some_iff) (fun _ _ => Json.string?_eq_some_iff)
    (fun _ _ => Json.bool?_eq_some_iff) ScheduleTags.mk (fun _ _ _ => ⟨rfl, rfl, rfl⟩)
    (fun _ => rfl) ?_ ?_
  · intro v f g h hgiven
    show ScheduleTags.ofJson? v = _
    unfold ScheduleTags.ofJson?
    rw [show fields? fieldNames v = _ from hgiven]
    rfl
  · intro v hv
    show ScheduleTags.ofJson? v = none
    unfold ScheduleTags.ofJson?
    split
    · next hgiven => exact absurd hgiven (hv _ _ _)
    · rfl

/-- **A policy or a set of tags that is given in part** is the default one with the given fields in
place of its own, and nothing else in the document matters. By default both sides of a call are
checked and its arity is strict; results may not be kept, and arguments may be put together. -/
theorem partial_records :
    ReadWithDefaults CheckPolicy { checkInput := true, checkOutput := true, arity := .strict }
      CheckPolicy.fields ∧
    ReadWithDefaults ScheduleTags { cachable := false, category := "Abstract", batchable := true }
      ScheduleTags.fields :=
  ⟨CheckPolicy.readByFields.readWithDefaults, ScheduleTags.readByFields.readWithDefaults⟩

example : (ofJson? (.object [("tags", .array [.unreadable]), ("check_output", .bool false),
    ("tags", .null), ("arity", .object [("permissive", .null)])]) : Option CheckPolicy) =
      some ⟨true, false, .permissive⟩ := by
  decide +kernel

example : (ofJson? (.array [.bool true, .string "Scalar"]) : Option ScheduleTags) =
    some ⟨true, "Scalar", true⟩ := by
  decide +kernel

end ArrayContract
