import ArrayContract.Fault
import Mathlib.Data.List.Chain
import Mathlib.Data.List.Infix

/-! # Faults in layers

A fault is a root in any number of layers that tell a place (`Fault.exists_within`). What a single
layer does to the kind, the causes and the message of a fault is said once (`kind_around`,
`sources_around`, `message_around`); what any number of them do follows by induction on the layers,
the outermost first.

* `layers_transparent`: the causes of a fault lead from the outside in to its root, one for each
  layer; all of them have the kind of the root, and the message of each is the text of its layer in
  front of the message of the next. -/

namespace ArrayContract

/-- Where a value stands: at a position of a call, or in a column. -/
inductive Layer
  | argument (direction : Direction) (index : Nat)
  | column (name : String)

namespace Layer

/-- The fault of the value that stands there. -/
def around : Layer → Fault → Fault
  | argument direction index, cause => .invalidArgument direction index cause
  | column name, cause => .invalidColumn name cause

/-- What is said of the place, in front of the message of the cause. -/
def text : Layer → String
  | argument .input index => s!"Invalid input value at position {index}: "
  | argument .output index => s!"Invalid output value at position {index}: "
  | column name => s!"Invalid column {name}: "

end Layer

namespace Fault

variable {root f : Fault} {layers : List Layer}

/-- A fault without any layer around it. -/
def IsRoot (f : Fault) : Prop := ∀ (l : Layer) (cause : Fault), f ≠ l.around cause

/-- A fault in layers, the outermost first. -/
def within (root : Fault) (layers : List Layer) : Fault := layers.foldr Layer.around root

/-! ## One layer -/

theorem kind_around (l : Layer) (f : Fault) : (l.around f).kind = f.kind := by
  cases l <;> rfl

theorem source?_around (l : Layer) (f : Fault) : (l.around f).source? = some f := by
  cases l <;> rfl

theorem sources_around (l : Layer) (f : Fault) : (l.around f).sources = f :: f.sources := by
  cases l <;> rfl

theorem message_around (l : Layer) (f : Fault) : (l.around f).message = l.text ++ f.message := by
  rcases l with ⟨_ | _, index⟩ | name <;> rfl

/-- A root is a fault without a source. -/
theorem isRoot_iff : f.IsRoot ↔ f.source? = none := by
  constructor
  · intro h
    cases f with
    | invalidArgument direction index cause => exact absurd rfl (h (.argument direction index) cause)
    | invalidColumn column cause => exact absurd rfl (h (.column column) cause)
    | _ => rfl
  · rintro h l cause rfl
    rw [source?_around] at h
    cases h

theorem IsRoot.sources_eq (h : root.IsRoot) : root.sources = [] := by
  have hsource := isRoot_iff.mp h
  cases root with
  | invalidArgument => cases hsource
  | invalidColumn => cases hsource
  | _ => rfl

/-! ## Any number of layers -/

@[simp] theorem within_nil (root : Fault) : root.within [] = root := rfl

@[simp] theorem within_cons (root : Fault) (l : Layer) (layers : List Layer) :
    root.within (l :: layers) = l.around (root.within layers) := rfl

/-- Every fault is a root in layers. -/
theorem exists_within (f : Fault) :
    ∃ (root : Fault) (layers : List Layer), root.IsRoot ∧ f = root.within layers := by
  induction f with
  | invalidArgument direction index cause ih =>
    obtain ⟨root, layers, hroot, rfl⟩ := ih
    exact ⟨root, .argument direction index :: layers, hroot, rfl⟩
  | invalidColumn column cause ih =>
    obtain ⟨root, layers, hroot, rfl⟩ := ih
    exact ⟨root, .column column :: layers, hroot, rfl⟩
  | _ => exact ⟨_, [], isRoot_iff.mpr rfl, rfl⟩

theorem kind_within (root : Fault) (layers : List Layer) :
    (root.within layers).kind = root.kind := by
  induction layers with
  | nil => rfl
  | cons l layers ih => rw [within_cons, kind_around, ih]

theorem message_within (root : Fault) (layers : List Layer) :
    (root.within layers).message = String.join (layers.map Layer.text) ++ root.message := by
  induction layers with
  | nil => rw [within_nil, List.map_nil, String.join_nil, String.empty_append]
  | cons l layers ih =>
    rw [within_cons, message_around, ih, List.map_cons, String.join_cons, String.append_assoc]

/-- **A fault and its causes** are the root in the layers that are left, fewer and fewer. -/
theorem cons_sources_within (h : root.IsRoot) (layers : List Layer) :
    root.within layers :: (root.within layers).sources = layers.tails.map root.within := by
  induction layers with
  | nil => simp [h.sources_eq]
  | cons l layers ih => rw [within_cons, sources_around, ih, List.tails_cons, List.map_cons]; rfl

theorem getElem?_cons_sources_within (h : root.IsRoot) {i : Nat} (hi : i ≤ layers.length) :
    (root.within layers :: (root.within layers).sources)[i]? =
      some (root.within (layers.drop i)) := by
  have hlt : i < layers.tails.length := by
    rw [List.length_tails]
    omega
  rw [cons_sources_within h, List.getElem?_map, List.getElem?_eq_getElem hlt, List.getElem_tails,
    Option.map_some]

/-- Each fault of the chain is the cause of the one before. -/
theorem isChain_sources (f : Fault) :
    List.IsChain (fun g cause => g.source? = some cause) (f :: f.sources) := by
  obtain ⟨root, layers, hroot, rfl⟩ := exists_within f
  induction layers with
  | nil => simp [hroot.sources_eq]
  | cons l layers ih =>
    rw [within_cons, sources_around]
    exact .cons_cons (source?_around l _) ih

end Fault

/-- **Layers hide nothing of the cause.** The causes of a root in layers are one for each layer, each
the source of the one before, and the last of them is the root, which has no source. The fault and
all its causes have the kind of the root, and the message of the root ends the message of each. The
fault at each depth is that layer around the next one, and its message is what the layer says of the
place followed by the message of the next; so the message of the fault is what all layers say, the
outermost first, followed by the message of the root. -/
theorem layers_transparent (root : Fault) (h : root.IsRoot) (layers : List Layer) :
    let fault := root.within layers
    fault.sources.length = layers.length ∧
    List.IsChain (fun f cause => f.source? = some cause) (fault :: fault.sources) ∧
    (fault :: fault.sources).getLast? = some root ∧ root.source? = none ∧
    (∀ f ∈ fault :: fault.sources, f.kind = root.kind ∧
      root.message.toList <:+ f.message.toList) ∧
    (∀ (i : Nat) (l : Layer), layers[i]? = some l → ∃ cause, fault.sources[i]? = some cause ∧
      (fault :: fault.sources)[i]? = some (l.around cause) ∧
      (l.around cause).message = l.text ++ cause.message) ∧
    fault.message = String.join (layers.map Layer.text) ++ root.message := by
  intro fault
  have hchain : fault :: fault.sources = layers.tails.map root.within :=
    Fault.cons_sources_within h layers
  have hlength : fault.sources.length = layers.length := by
    have hlen := congrArg List.length hchain
    rwa [List.length_cons, List.length_map, List.length_tails, Nat.add_right_cancel_iff] at hlen
  refine ⟨hlength, Fault.isChain_sources fault, ?_, Fault.isRoot_iff.mp h, fun f hf => ?_,
    fun i l hl => ?_, Fault.message_within root layers⟩
  · rw [List.getLast?_eq_getElem?, List.length_cons, Nat.add_sub_cancel, hlength,
      Fault.getElem?_cons_sources_within h le_rfl, List.drop_length, Fault.within_nil]
  · rw [hchain] at hf
    obtain ⟨inner, -, rfl⟩ := List.mem_map.mp hf
    refine ⟨Fault.kind_within root inner, ?_⟩
    rw [Fault.message_within, String.toList_append]
    exact List.suffix_append _ _
  · obtain ⟨hi, rfl⟩ := List.getElem?_eq_some_iff.mp hl
    refine ⟨root.within (layers.drop (i + 1)), ?_, ?_, Fault.message_around _ _⟩
    · rw [← List.getElem?_cons_succ (a := fault)]
      exact Fault.getElem?_cons_sources_within h hi
    · rw [Fault.getElem?_cons_sources_within h hi.le, List.drop_eq_getElem_cons hi]
      rfl

/-- An unknown element type behind three layers. -/
theorem layers_transparent_three :
    let root : Fault := .unknownElementType .any
    let fault := root.within [.argument .output 1, .column "label", .argument .input 0]
    root.IsRoot ∧ fault.sources.length = 3 ∧ fault.kind = .unknownElementType ∧
      fault.message = "Invalid output value at position 1: Invalid column label: " ++
        "Invalid input value at position 0: Unknown array type: ANY" := by
  intro root fault
  have hroot : root.IsRoot := Fault.isRoot_iff.mpr rfl
  obtain ⟨hlength, -, -, -, hall, -, hmessage⟩ := layers_transparent root hroot
    [.argument .output 1, .column "label", .argument .input 0]
  exact ⟨hroot, hlength, (hall _ List.mem_cons_self).1, hmessage.trans (by decide)⟩

end ArrayContract
