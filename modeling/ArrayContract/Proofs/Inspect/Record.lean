import ArrayContract.Inspect.Record
import ArrayContract.Proofs.Fault.Texts

/-! # What a log tells

Events of one message are written in one form: the message tells how much the event matters, who
reports it, and the names of its fields (`Event.form_of_message`). The fields tell the rest, since
numbers, names and shapes can be read back from their texts (`Inspect.shape_injective`,
`Inspect.names_injective`).

* `Event.written_eq_iff`: two events are written with one message and one list of fields only if
  they are equal, up to the arguments of a setup routine, of which the log keeps the text. -/

namespace ArrayContract

open Text (Delimited behind)

/-! ## Sequences -/

namespace Inspect

section Sequences

variable {α : Type} {text : α → String}

theorem toList_sequence_nil (text : α → String) :
    (sequence (([] : List α).map text)).toList = ['[', ']'] := by
  simp [sequence, commaSeparated]

theorem toList_sequence_cons (text : α → String) (a : α) (as : List α) :
    (sequence ((a :: as).map text)).toList = '[' :: ((text a).toList ++ behind text ']' as) := by
  rw [← Text.toList_intercalate]
  simp [sequence, commaSeparated]

/-- A sequence can be read back if each of its items tells where it ends, and none of them begins as
the sequence ends. -/
theorem sequence_injective (htext : Delimited text ']')
    (hstart : ∀ (a : α) (x : List Char), (text a).toList ++ x ≠ [']']) :
    Function.Injective fun as : List α => sequence (as.map text) := by
  intro as bs h
  have hchars : (sequence (as.map text)).toList = (sequence (bs.map text)).toList :=
    congrArg String.toList h
  rcases as with _ | ⟨a, as⟩ <;> rcases bs with _ | ⟨b, bs⟩
  · rfl
  · rw [toList_sequence_cons, toList_sequence_nil] at hchars
    exact absurd (List.cons.inj hchars).2.symm (hstart b _)
  · rw [toList_sequence_cons, toList_sequence_nil] at hchars
    exact absurd (List.cons.inj hchars).2 (hstart a _)
  · rw [toList_sequence_cons, toList_sequence_cons] at hchars
    obtain ⟨rfl, hbehind⟩ := htext a b as bs [] [] (by simpa using hchars)
    obtain ⟨rfl, -⟩ := Text.behind_append_inj (by decide) htext hbehind
    rfl

end Sequences

theorem shape_injective : Function.Injective shape :=
  sequence_injective
    (fun _ _ as bs x y => Text.decimal_append_inj (Text.noDigit_behind (by decide) as x)
      (Text.noDigit_behind (by decide) bs y))
    (fun _ _ => Text.decimal_append_ne (by decide))

theorem names_injective : Function.Injective names :=
  sequence_injective (fun _ _ _ _ _ _ => Text.quoted_append_inj) fun s x h => by
    rw [Text.toList_quoted_append] at h
    exact absurd (List.cons.inj h).1 (by decide)

end Inspect

/-! ## Forms -/

theorem Json.ofNat_injective : Function.Injective Json.ofNat := by
  intro m n h
  simpa [Json.ofNat] using h

theorem Backend.title_injective : Function.Injective Backend.title := by
  intro b b' h
  cases b <;> cases b' <;> first | rfl | exact absurd h (by decide)

namespace Event

variable {e e' : Event}

/-- An event without its data. -/
inductive Form
  | casting (backend : Backend)
  | reshaping (backend : Backend)
  | convertingType
  | convertingShape
  | describingTable
  | describedFunction
  | addingEntries
  | checkingInputs
  | checkingOutputs
  | registeringEntries
  | instantiating
  | registered
  deriving DecidableEq

namespace Form

def all : List Form :=
  [casting .host, casting .arrow, reshaping .host, reshaping .arrow, convertingType,
    convertingShape, describingTable, describedFunction, addingEntries, checkingInputs,
    checkingOutputs, registeringEntries, instantiating, registered]

theorem mem_all (f : Form) : f ∈ all := by
  cases f with
  | casting b => cases b <;> decide
  | reshaping b => cases b <;> decide
  | _ => decide

def message : Form → String
  | casting .host => "casting host array"
  | casting .arrow => "casting arrow tensor"
  | reshaping .host => "reshaping host array"
  | reshaping .arrow => "reshaping arrow tensor"
  | convertingType => "converting type"
  | convertingShape => "converting shape"
  | describingTable => "generating table catalog entries"
  | describedFunction => "generated udf catalog entries"
  | addingEntries => "adding catalog entries"
  | checkingInputs => "validating forward inputs"
  | checkingOutputs => "validating forward outputs"
  | registeringEntries => "registering udf catalog entries"
  | instantiating => "instantiating udf"
  | registered => "registered udf"

/-- How much the events of a form matter, who reports them, and the names of their fields. -/
def record : Form → Level × String × List String
  | casting .host | reshaping .host => (.trace, "udfio::array::host", ["from", "to"])
  | casting .arrow | reshaping .arrow => (.trace, "udfio::array::tensor", ["from", "to"])
  | convertingType | convertingShape =>
    (.trace, "udfio::descriptor::array", ["name", "to", "backend"])
  | describingTable => (.debug, "udfio::descriptor::table", ["columns", "is_input"])
  | describedFunction => (.debug, "udfio::catalog", ["inputs", "outputs", "entries"])
  | addingEntries => (.debug, "udfio::catalog", ["count"])
  | checkingInputs => (.trace, "udfio::forward", ["args", "descriptors"])
  | checkingOutputs => (.trace, "udfio::forward", ["outputs"])
  | registeringEntries => (.debug, "udfio::udf", ["name"])
  | instantiating => (.debug, "udfio::udf", ["name", "args"])
  | registered => (.debug, "udfio::udf", ["name", "entries"])

theorem message_injective : Function.Injective message := by
  have hmessages : ∀ f ∈ all, ∀ g ∈ all, f.message = g.message → f = g := by decide +kernel
  exact fun f g => hmessages f (mem_all f) g (mem_all g)

end Form

def form : Event → Form
  | casting backend .. => .casting backend
  | reshaping backend .. => .reshaping backend
  | convertingType .. => .convertingType
  | convertingShape .. => .convertingShape
  | describingTable .. => .describingTable
  | describedFunction .. => .describedFunction
  | addingEntries _ => .addingEntries
  | checkingInputs .. => .checkingInputs
  | checkingOutputs _ => .checkingOutputs
  | registeringEntries _ => .registeringEntries
  | instantiating .. => .instantiating
  | registered .. => .registered

theorem message_form (e : Event) : e.message = e.form.message := by
  cases e with
  | casting b => cases b <;> rfl
  | reshaping b => cases b <;> rfl
  | _ => rfl

theorem record_form (e : Event) : (e.level, e.target, e.fields.map Prod.fst) = e.form.record := by
  cases e with
  | casting b => cases b <;> rfl
  | reshaping b => cases b <;> rfl
  | _ => rfl

theorem form_eq_of_message (h : e.message = e'.message) : e.form = e'.form := by
  rw [message_form, message_form] at h
  exact Form.message_injective h

/-- **Events of one message** are written in one form. -/
theorem form_of_message (h : e.message = e'.message) :
    e.level = e'.level ∧ e.target = e'.target ∧
      e.fields.map Prod.fst = e'.fields.map Prod.fst := by
  have hrecord : (e.level, e.target, e.fields.map Prod.fst) =
      (e'.level, e'.target, e'.fields.map Prod.fst) := by
    rw [record_form, record_form, form_eq_of_message h]
  simpa using hrecord

/-! ## Data -/

/-- The events are equal, but for the arguments of a setup routine, which have one text. -/
inductive Alike : Event → Event → Prop
  | refl (e : Event) : Alike e e
  | instantiating (function : String) {args args' : SetupArguments}
      (h : Inspect.arguments args = Inspect.arguments args') :
      Alike (.instantiating function args) (.instantiating function args')

/-- **The log tells the event.** Two events have one message and the same fields if and only if they
are alike. -/
theorem written_eq_iff : (e.message = e'.message ∧ e.fields = e'.fields) ↔ Alike e e' := by
  constructor
  · rintro ⟨hmessage, hfields⟩
    have hform := form_eq_of_message hmessage
    cases e <;> cases e' <;> cases hform <;>
      simp only [fields, List.cons.injEq, Prod.mk.injEq, Json.string.injEq, Json.bool.injEq,
        true_and, and_true, DeclaredType.name_injective.eq_iff, Backend.title_injective.eq_iff,
        ShapePattern.text_injective.eq_iff, Inspect.shape_injective.eq_iff,
        Inspect.names_injective.eq_iff, Json.ofNat_injective.eq_iff] at hfields
    case instantiating.refl =>
      obtain ⟨rfl, hargs⟩ := hfields
      exact .instantiating _ hargs
    case addingEntries.refl | checkingOutputs.refl | registeringEntries.refl =>
      subst hfields
      exact .refl _
    case convertingType.refl | convertingShape.refl | describedFunction.refl =>
      obtain ⟨rfl, rfl, rfl⟩ := hfields
      exact .refl _
    all_goals
      obtain ⟨rfl, rfl⟩ := hfields
      exact .refl _
  · rintro (_ | ⟨function, h⟩)
    · exact ⟨rfl, rfl⟩
    · exact ⟨rfl, by rw [fields, fields, h]⟩

end Event

end ArrayContract
