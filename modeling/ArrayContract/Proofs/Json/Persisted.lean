import ArrayContract.Json.Persisted
import ArrayContract.Proofs.Json.Documents

/-! # Declarations are read back from their texts

For each persisted type it is enough to look at documents (`Faithful`): what fits is written as a
plain document and read back from it, and only what fits is read from any document. Names are read
back because no two are the same, and a record because its fields have different names. The texts
then follow from those of documents (`Faithful.roundTrips`). The only values that do not fit are
axes whose lengths no number stands for. -/

namespace ArrayContract

open Json (Plain member? fields? named?)

/-! ## Texts and documents -/

namespace Persisted

variable {α : Type} [Persisted α] {Fits : α → Prop}

/-- The text of a value that fits is read back as this value, and so is the text of whatever is
read from any text. -/
def RoundTrips (α : Type) [Persisted α] (Fits : α → Prop) : Prop :=
  (∀ x : α, Fits x → ofText? (text x) = some x) ∧
  ∀ (t : String) (x : α), ofText? t = some x → Fits x ∧ ofText? (text x) = some x

/-- The documents of a type stand for the values that fit, and for no others. -/
structure Faithful (α : Type) [Persisted α] (Fits : α → Prop) : Prop where
  plain : ∀ {x : α}, Fits x → (toJson x).Plain
  read : ∀ {x : α}, Fits x → ofJson? (toJson x) = some x
  fits : ∀ {v : Json} {x : α}, ofJson? v = some x → Fits x

theorem Faithful.ofText?_text (h : Faithful α Fits) {x : α} (hx : Fits x) :
    ofText? (text x) = some x := by
  rw [ofText?, text, Json.ofText?_text (h.plain hx), Option.bind_some, h.read hx]

theorem Faithful.roundTrips (h : Faithful α Fits) : RoundTrips α Fits := by
  refine ⟨fun x hx => h.ofText?_text hx, fun t x ht => ?_⟩
  obtain ⟨v, -, hv⟩ := Option.bind_eq_some_iff.mp ht
  exact ⟨h.fits hv, h.ofText?_text (h.fits hv)⟩

/-- What fits is told apart by its text. -/
theorem RoundTrips.text_injOn (h : RoundTrips α Fits) {x y : α} (hx : Fits x) (hy : Fits y)
    (ht : text x = text y) : x = y :=
  Option.some.inj ((h.1 x hx).symm.trans (ht ▸ h.1 y hy))

end Persisted

open Persisted

/-! ## Names -/

theorem Json.named?_string {α : Type} {all : List α} {name : α → String} {x : α} (hx : x ∈ all)
    (hname : ∀ y ∈ all, name y = name x → y = x) :
    named? all name (.string (name x)) = some x := by
  show all.find? (name · == name x) = some x
  cases hf : all.find? (name · == name x) with
  | none => exact absurd (beq_self_eq_true (name x)) (List.find?_eq_none.mp hf x hx)
  | some y =>
    have hy := List.find?_some hf
    exact congrArg some (hname y (List.mem_of_find?_eq_some hf) (beq_iff_eq.mp hy))

/-- A type whose values have different names. -/
theorem Persisted.faithful_of_names {α : Type} [Persisted α] {all : List α} {name : α → String}
    (hw : ∀ x : α, toJson x = .string (name x)) (hr : ∀ v, ofJson? v = named? all name v)
    (hall : ∀ x, x ∈ all) (hname : ∀ x ∈ all, ∀ y ∈ all, name y = name x → y = x) :
    Faithful α fun _ => True where
  plain _ := hw _ ▸ .string _
  read {x} _ := by rw [hw, hr, Json.named?_string (hall x) (hname x (hall x))]
  fits _ := trivial

theorem DeclaredType.faithful : Faithful DeclaredType fun _ => True := by
  refine faithful_of_names (fun _ => rfl) (fun _ => rfl) ?_ (by decide)
  rintro (_ | t)
  · decide
  · cases t <;> decide

theorem LogicalType.faithful : Faithful LogicalType fun _ => True :=
  faithful_of_names (fun _ => rfl) (fun _ => rfl) (by rintro ⟨⟩; decide) (by decide)

theorem Backend.faithful : Faithful Backend fun _ => True :=
  faithful_of_names (fun _ => rfl) (fun _ => rfl) (by rintro ⟨⟩ <;> decide) (by decide)

theorem Arity.faithful : Faithful Arity fun _ => True :=
  faithful_of_names (fun _ => rfl) (fun _ => rfl) (by rintro ⟨⟩ <;> decide) (by decide)

/-! ## Shapes -/

/-- A number can stand for the length, if there is one. -/
def Axis.Fits (a : Axis) : Prop := ∀ n ∈ a.length?, n < Json.naturalBound

def ShapePattern.Fits (s : ShapePattern) : Prop := ∀ as ∈ s.axes?, ∀ a ∈ as, a.Fits

theorem Json.Number.natural?_eq_some_iff {m : Number} {n : Nat} :
    m.natural? = some n ↔ m = ⟨false, n, [], none⟩ ∧ n < naturalBound := by
  obtain ⟨negative, whole, fraction, exponent⟩ := m
  simp only [natural?, Option.ite_none_right_eq_some, Bool.and_eq_true, Bool.not_eq_true',
    decide_eq_true_eq, List.isEmpty_iff, Option.isNone_iff_eq_none, Option.some.injEq]
  constructor
  · rintro ⟨⟨⟨⟨rfl, rfl⟩, rfl⟩, h⟩, rfl⟩
    exact ⟨rfl, h⟩
  · rintro ⟨⟨⟩, h⟩
    exact ⟨⟨⟨⟨rfl, rfl⟩, rfl⟩, h⟩, rfl⟩

theorem Axis.faithful : Faithful Axis Axis.Fits where
  plain {a} ha := by
    rcases a with n | _
    · exact .natural (ha n rfl)
    · exact .null
  read {a} ha := by
    rcases a with n | _
    · show (Json.Number.natural? ⟨false, n, [], none⟩).map fixed = some (fixed n)
      rw [Json.Number.natural?_eq_some_iff.mpr ⟨rfl, ha n rfl⟩, Option.map_some]
    · rfl
  fits {v a} h := by
    cases v with
    | null =>
      obtain rfl := Option.some.inj h
      exact nofun
    | number m =>
      obtain ⟨n, hn, rfl⟩ := Option.map_eq_some_iff.mp h
      rintro _ ⟨⟩
      exact (Json.Number.natural?_eq_some_iff.mp hn).2
    | _ => exact nomatch h

theorem ShapePattern.faithful : Faithful ShapePattern ShapePattern.Fits where
  plain {s} hs := by
    rcases s with _ | as
    · exact .null
    · refine .array fun v hv => ?_
      obtain ⟨a, ha, rfl⟩ := List.mem_map.mp hv
      exact Axis.faithful.plain (hs as rfl a ha)
  read {s} hs := by
    rcases s with _ | as
    · rfl
    · have hr : (as.map Axis.toJson).mapM Axis.ofJson? = some as :=
        Json.mapM_eq_some_iff.mpr (List.forall₂_map_left_iff.mpr (List.forall₂_same.mpr
          fun a ha => Axis.faithful.read (hs as rfl a ha)))
      show ((as.map Axis.toJson).mapM Axis.ofJson?).map axes = some (axes as)
      rw [hr, Option.map_some]
  fits {v s} h := by
    cases v with
    | null =>
      obtain rfl := Option.some.inj h
      exact nofun
    | array items =>
      obtain ⟨as, has, rfl⟩ := Option.map_eq_some_iff.mp h
      rintro _ ⟨⟩
      have hf := (Json.mapM_eq_some_iff.mp has).flip.imp fun a v hv =>
        show a.Fits ∧ Axis.ofJson? v = some a from ⟨Axis.faithful.fits hv, hv⟩
      exact ((List.forall₂_and_left _ _).mp hf).1
    | _ => exact nomatch h

/-! ## Records -/

namespace Json

variable {names : List String} {vs : List Json} {ms : List (String × Json)} {name : String}
  {v : Json}

theorem member?_cons_self (v : Json) (h : ∀ m ∈ ms, m.1 ≠ name) :
    member? ((name, v) :: ms) name = some (some v) := by
  have hf : ms.filter (·.1 == name) = [] := by simpa using h
  simp [member?, hf]

theorem member?_cons_of_ne {other : String} (v : Json) (h : other ≠ name) :
    member? ((other, v) :: ms) name = member? ms name := by
  simp [member?, h]

/-- Where no name comes twice, every member is found. -/
theorem member?_of_mem (hn : (ms.map Prod.fst).Nodup) (hm : (name, v) ∈ ms) :
    member? ms name = some (some v) := by
  induction ms with
  | nil => exact nomatch hm
  | cons m ms ih =>
    obtain ⟨hout, hn⟩ := List.nodup_cons.mp hn
    obtain rfl | hm := List.mem_cons.mp hm
    · exact member?_cons_self v fun m hm he => hout (List.mem_map.mpr ⟨m, hm, he⟩)
    · rw [member?_cons_of_ne, ih hn hm]
      exact fun he => hout (List.mem_map.mpr ⟨_, hm, he.symm⟩)

/-- The fields of a record are found under their names, which are different. -/
theorem fields?_zip (hn : names.Nodup) (hl : names.length = vs.length) :
    fields? names (object (names.zip vs)) = some (vs.map some) := by
  refine mapM_eq_some_iff.mpr (List.forall₂_map_right_iff.mpr (List.forall₂_iff_zip.mpr ?_))
  refine ⟨hl, fun {name v} hm => member?_of_mem ?_ hm⟩
  rwa [List.map_fst_zip (Nat.le_of_eq hl)]

theorem plain_record (names : List String) (h : ∀ v ∈ vs, Plain v) :
    Plain (object (names.zip vs)) :=
  .object fun _ hm => h _ (List.of_mem_zip hm).2

end Json

theorem CheckPolicy.faithful : Faithful CheckPolicy fun _ => True where
  plain {p} _ := by
    refine Json.plain_record _ ?_
    simp [Plain.bool, Arity.faithful.plain]
  read {p} _ := by
    show ofJson? p.toJson = some p
    rw [ofJson?, toJson, Json.fields?_zip (by decide) rfl]
    simp [Json.orDefault, Json.bool?, Arity.faithful.read]
  fits _ := trivial

theorem ScheduleTags.faithful : Faithful ScheduleTags fun _ => True where
  plain {t} _ := by
    refine Json.plain_record _ ?_
    simp [Plain.bool, Plain.string]
  read {t} _ := by
    show ofJson? t.toJson = some t
    rw [ofJson?, toJson, Json.fields?_zip (by decide) rfl]
    simp [Json.orDefault, Json.bool?, Json.string?]
  fits _ := trivial

theorem CatalogEntry.faithful : Faithful CatalogEntry fun e => e.shape.Fits where
  plain {e} he := by
    refine Json.plain_record _ ?_
    have hs : e.shape.toJson.Plain := ShapePattern.faithful.plain he
    simp [Plain.bool, Plain.string, LogicalType.faithful.plain, DeclaredType.faithful.plain, hs]
  read {e} he := by
    have hs : ShapePattern.ofJson? e.shape.toJson = some e.shape := ShapePattern.faithful.read he
    show ofJson? e.toJson = some e
    rw [ofJson?, toJson, Json.fields?_zip (by decide) rfl]
    simp [Json.bool?, Json.string?, LogicalType.faithful.read, DeclaredType.faithful.read, hs]
  fits {v e} h := by
    have h : CatalogEntry.ofJson? v = some e := h
    unfold CatalogEntry.ofJson? at h
    split at h
    · simp only [Option.bind_eq_bind, Option.bind_eq_some_iff] at h
      obtain ⟨_, -, _, -, _, -, _, -, shape, hs, _, -, he⟩ := h
      obtain rfl := Option.some.inj he
      exact ShapePattern.faithful.fits hs
    · exact nomatch h

/-! ## All declarations -/

/-- **Declarations are read back from their texts.** Every declaration is read back from the text
it is written as, if its fixed axes have lengths that a number stands for. Whatever is read from any
text is such a declaration, so that writing it again gives a text with the same meaning. No two
shapes are written the same. -/
theorem declarations_roundTrip :
    RoundTrips CatalogEntry (fun e => e.shape.Fits) ∧
    RoundTrips ShapePattern ShapePattern.Fits ∧
    RoundTrips Axis Axis.Fits ∧
    RoundTrips DeclaredType (fun _ => True) ∧
    RoundTrips LogicalType (fun _ => True) ∧
    RoundTrips Backend (fun _ => True) ∧
    RoundTrips Arity (fun _ => True) ∧
    RoundTrips CheckPolicy (fun _ => True) ∧
    RoundTrips ScheduleTags (fun _ => True) ∧
    ∀ s s' : ShapePattern, s.Fits → s'.Fits → text s = text s' → s = s' :=
  ⟨CatalogEntry.faithful.roundTrips, ShapePattern.faithful.roundTrips, Axis.faithful.roundTrips,
    DeclaredType.faithful.roundTrips, LogicalType.faithful.roundTrips, Backend.faithful.roundTrips,
    Arity.faithful.roundTrips, CheckPolicy.faithful.roundTrips, ScheduleTags.faithful.roundTrips,
    fun _ _ hs hs' => ShapePattern.faithful.roundTrips.text_injOn hs hs'⟩

/-- An entry whose name has to be escaped, with the longest axis there is; a policy of which all
fields but one are left out; and the shapes without a fixed axis. -/
theorem declarations_roundTrip_examples :
    let e : CatalogEntry :=
      ⟨"größe \"∅\"\n", .ndArray, false, .of .int32, .axes [.fixed 18446744073709551615, .any],
        true⟩
    let t := "\x7b\"tags\": [0.5], \"arity\": \x7b\"permissive\": null\x7d \x7d"
    let p : CheckPolicy := { arity := .permissive }
    ofText? (text e) = some e ∧ ofText? t = some p ∧ ofText? (text p) = some p ∧
      text ShapePattern.any ≠ text (ShapePattern.axes []) ∧
      text (ShapePattern.axes []) ≠ text (ShapePattern.axes [.any]) := by
  intro e t p
  have ht : ofText? t = some p := by decide +kernel
  obtain ⟨he, -, -, -, -, -, -, hp, -, hs⟩ := declarations_roundTrip
  have hany : ShapePattern.any.Fits := nofun
  have hnil : (ShapePattern.axes []).Fits := by simp [ShapePattern.Fits, ShapePattern.axes?]
  have hfree : (ShapePattern.axes [.any]).Fits := by
    simp [ShapePattern.Fits, ShapePattern.axes?, Axis.Fits, Axis.length?]
  refine ⟨he.1 e ?_, ht, (hp.2 t p ht).2, fun h => ?_, fun h => ?_⟩
  · rintro _ ⟨⟩
    simp [Axis.Fits, Axis.length?, Json.naturalBound]
  · exact absurd (hs _ _ hany hnil h) (by decide)
  · exact absurd (hs _ _ hnil hfree h) (by decide)

end ArrayContract
