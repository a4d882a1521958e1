import ArrayContract.Proofs.Fault.Layers
import ArrayContract.Proofs.Shape.Text

/-! # What the texts of faults tell

The text of a misfit, a target or an obstacle in the words of the library tells which one it is
(`Misfit.text_inj`, `Target.prefixFree_text`, `Obstacle.text_inj`): it begins with words of its own,
and the numbers and shapes behind them end where the words go on. A whole message begins in the same
way, with the words of its outermost layer or else of its kind (`Fault.Head`).

* `Fault.ofKind_iff`: the kind of a root is the cause it is built from.
* `Fault.kind_eq_iff_prefix`: a root has the kind whose words its message begins with.
* `Fault.message_within_eq_iff`: two roots in layers have one message only if the layers are the
  same and the roots differ in nothing but the shape of the array at hand, which no message
  shows. -/

namespace ArrayContract

open Text (NoDigit PrefixFree)

/-! ## Titles -/

theorem DataType.title_injective : Function.Injective DataType.title := by
  have htitles : ∀ d ∈ ElementType.all.map numeric ++ others,
      ∀ e ∈ ElementType.all.map numeric ++ others, d.title = e.title → d = e := by
    decide +kernel
  have hall : ∀ d : DataType, d ∈ ElementType.all.map numeric ++ others := by
    intro d
    cases d with
    | numeric t => cases t <;> decide
    | _ => decide
  exact fun d e => htitles d (hall d) e (hall e)

theorem DeclaredType.name_injective : Function.Injective DeclaredType.name := by
  intro d d' h
  rcases d with _ | ⟨_ | _ | _ | _ | _ | _⟩ <;> rcases d' with _ | ⟨_ | _ | _ | _ | _ | _⟩ <;>
    first | rfl | exact absurd h (by decide)

/-! ## Targets -/

/-- The target is told in the words of the library. -/
def Target.Own (t : Target) : Prop := ∀ words, t ≠ .stated words

theorem Target.prefixFree_text :
    PrefixFree text [.native .host, .native .arrow, .tuple, .rectangle] := by
  decide

theorem Target.Own.mem {t : Target} (h : t.Own) :
    t ∈ [.native .host, .native .arrow, .tuple, .rectangle] := by
  rcases t with ⟨_ | _⟩ | _ | _ | words
  · decide
  · decide
  · decide
  · decide
  · exact absurd rfl (h words)

/-! ## Obstacles -/

namespace Obstacle

variable {o o' : Obstacle}

/-- The obstacle is told in the words of the library. -/
def Own (o : Obstacle) : Prop := ∀ words, o ≠ .stated words

/-- What the text of an obstacle begins with. -/
inductive Head
  | title (found : Representation)
  | column
  | nulls
  | ragged
  | tooDeep
  | stated
  deriving DecidableEq

-- The title of an arrow tensor also begins the text about its nulls; with the full stop it does not.
/-- The first words of the text; a title is all of it, up to a full stop. -/
def Head.words : Head → String
  | title found => found.title ++ "."
  | column => "arrow array of type "
  | nulls => "arrow tensor containing "
  | ragged => "ragged nested sequence at depth "
  | tooDeep => "sequence nested deeper than "
  | stated => ""

/-- The heads in the words of the library. -/
def Head.own : List Head :=
  [.native .host, .native .arrow, .nested, .table, .text, .handle, .tuple].map title ++
    [column, nulls, ragged, tooDeep]

theorem Head.prefixFree_words : PrefixFree words own := by
  decide +kernel

def head : Obstacle → Head
  | representation found => .title found
  | column _ => .column
  | nulls _ => .nulls
  | ragged _ => .ragged
  | tooDeep => .tooDeep
  | stated _ => .stated

/-- What follows, up to a full stop. -/
def details : Obstacle → String
  | representation _ => ""
  | column type => type.title ++ "."
  | nulls count => toString count ++ " nulls."
  | ragged depth => toString depth ++ "."
  | tooDeep => "64 levels."
  | stated text => text ++ "."

theorem Own.head_mem (h : o.Own) : o.head ∈ Head.own := by
  cases o with
  | representation found => rcases found with ⟨_ | _⟩ | _ | _ | _ | _ | _ <;> decide
  | column type => exact (by decide : Head.column ∈ Head.own)
  | nulls count => exact (by decide : Head.nulls ∈ Head.own)
  | ragged depth => exact (by decide : Head.ragged ∈ Head.own)
  | tooDeep => decide
  | stated words => exact absurd rfl (h words)

theorem text_eq (o : Obstacle) : o.text ++ "." = o.head.words ++ o.details := by
  cases o with
  | representation found => exact String.append_empty.symm
  | column type => exact String.append_assoc
  | nulls count =>
    calc
      (nulls count).text ++ "."
        = "arrow tensor containing " ++ toString count ++ " nulls" ++ "." := rfl
      _ = _ := by rw [String.append_assoc, String.append_assoc]; rfl
  | ragged depth => exact String.append_assoc
  | tooDeep => rfl
  | stated text => exact String.empty_append.symm

theorem text_inj (h : o.Own) (h' : o'.Own) (heq : o.text = o'.text) : o = o' := by
  have hparts : o.head.words ++ o.details = o'.head.words ++ o'.details := by
    rw [← text_eq, heq, text_eq]
  obtain ⟨hhead, hdetails⟩ :=
    Head.prefixFree_words.append_inj h.head_mem h'.head_mem hparts
  cases o <;> cases o' <;> cases hhead
  case representation.refl => rfl
  case column.refl => rw [DataType.title_injective ((String.append_left_inj _).mp hdetails)]
  case nulls.refl => rw [(Text.number_append_inj hdetails rfl rfl).1]
  case ragged.refl => rw [(Text.number_append_inj hdetails rfl rfl).1]
  case tooDeep.refl => rfl
  case stated.refl words _ => exact absurd rfl (h words)

end Obstacle

/-! ## Misfits -/

namespace Misfit

variable {r r' : Misfit}

/-- The misfit is told in the words of the library. -/
def Own (r : Misfit) : Prop := ∀ words, r ≠ .stated words

/-- What the text of a misfit begins with. -/
inductive Head
  | uncountable
  | content
  | uncountableArray
  | uncountableRequest
  | size
  | rank
  | axis
  | stated
  deriving DecidableEq

def Head.words : Head → String
  | uncountable => "shape overflows"
  | content => "shape holds "
  | uncountableArray => "array shape overflows"
  | uncountableRequest => "requested shape overflows"
  | size => "cannot reshape array of size "
  | rank => "expected "
  | axis => "axis "
  | stated => ""

/-- The heads in the words of the library. -/
def Head.own : List Head :=
  [uncountable, content, uncountableArray, uncountableRequest, size, rank, axis]

theorem Head.prefixFree_words : PrefixFree words own := by
  decide +kernel

def head : Misfit → Head
  | uncountable => .uncountable
  | content .. => .content
  | uncountableArray => .uncountableArray
  | uncountableRequest => .uncountableRequest
  | size .. => .size
  | rank .. => .rank
  | axis .. => .axis
  | stated _ => .stated

/-- What follows. -/
def details : Misfit → String
  | uncountable | uncountableArray | uncountableRequest => ""
  | content .host counted stored =>
    toString counted ++ (" elements, buffer has " ++ toString stored)
  | content .arrow counted stored =>
    toString counted ++ (" elements, array has " ++ toString stored)
  | size count axes => toString count ++ (" into shape " ++ (ShapePattern.axes axes).text)
  | rank expected actual => toString expected ++ (" axes, array has " ++ toString actual)
  | axis index actual expected =>
    toString index ++ (" has length " ++ (toString actual ++ (", expected " ++ toString expected)))
  | stated text => text

theorem Own.head_mem (h : r.Own) : r.head ∈ Head.own := by
  cases r with
  | uncountable => decide
  | content b counted stored => exact (by decide : Head.content ∈ Head.own)
  | uncountableArray => decide
  | uncountableRequest => decide
  | size count axes => exact (by decide : Head.size ∈ Head.own)
  | rank expected actual => exact (by decide : Head.rank ∈ Head.own)
  | axis index actual expected => exact (by decide : Head.axis ∈ Head.own)
  | stated words => exact absurd rfl (h words)

theorem text_eq (r : Misfit) : r.text = r.head.words ++ r.details := by
  cases r with
  | uncountable | uncountableArray | uncountableRequest => exact String.append_empty.symm
  | content b counted stored => cases b <;> exact Text.append_assoc₃ _ _ _ _
  | size count axes => exact Text.append_assoc₃ _ _ _ _
  | rank expected actual => exact Text.append_assoc₃ _ _ _ _
  | axis index actual expected =>
    rw [head, Head.words, details]
    simp only [← String.append_assoc]
    rfl
  | stated text => exact String.empty_append.symm

theorem text_inj (h : r.Own) (h' : r'.Own) (heq : r.text = r'.text) : r = r' := by
  rw [text_eq, text_eq] at heq
  obtain ⟨hhead, hdetails⟩ :=
    Head.prefixFree_words.append_inj h.head_mem h'.head_mem heq
  cases r <;> cases r' <;> cases hhead
  case uncountable.refl => rfl
  case content.refl b counted stored b' counted' stored' =>
    cases b <;> cases b'
    · obtain ⟨rfl, hrest⟩ := Text.number_words_inj hdetails rfl rfl
      rw [Text.decimal_injective ((String.append_right_inj _).mp hrest)]
    · obtain ⟨rfl, hrest⟩ := Text.number_words_inj hdetails rfl rfl
      exact absurd (congrArg String.toList hrest) (by simp)
    · obtain ⟨rfl, hrest⟩ := Text.number_words_inj hdetails rfl rfl
      exact absurd (congrArg String.toList hrest) (by simp)
    · obtain ⟨rfl, hrest⟩ := Text.number_words_inj hdetails rfl rfl
      rw [Text.decimal_injective ((String.append_right_inj _).mp hrest)]
  case uncountableArray.refl => rfl
  case uncountableRequest.refl => rfl
  case size.refl =>
    obtain ⟨rfl, hrest⟩ := Text.number_words_inj hdetails rfl rfl
    obtain rfl :=
      ShapePattern.axes.inj (ShapePattern.text_injective ((String.append_right_inj _).mp hrest))
    rfl
  case rank.refl =>
    obtain ⟨rfl, hrest⟩ := Text.number_words_inj hdetails rfl rfl
    rw [Text.decimal_injective ((String.append_right_inj _).mp hrest)]
  case axis.refl =>
    obtain ⟨rfl, hrest⟩ := Text.number_words_inj hdetails rfl rfl
    obtain ⟨rfl, hlast⟩ :=
      Text.number_words_inj ((String.append_right_inj _).mp hrest) rfl rfl
    rw [Text.decimal_injective ((String.append_right_inj _).mp hlast)]
  case stated.refl words _ => exact absurd rfl (h words)

end Misfit

/-! ## Kinds -/

namespace Fault

variable {f g root root' : Fault} {k : Kind} {l l' : Layer} {layers layers' : List Layer}

/-- The faults of a kind, without layers. -/
inductive OfKind : Kind → Fault → Prop
  | shapeMismatch (expected : ShapePattern) (actual : Shape) (reason : Misfit) :
      OfKind .shapeMismatch (.shapeMismatch expected actual reason)
  | unsupportedRepresentation (target : Target) (found : Obstacle) :
      OfKind .unsupportedRepresentation (.unsupportedRepresentation target found)
  | unknownElementType (type : DeclaredType) :
      OfKind .unknownElementType (.unknownElementType type)
  | lengthMismatch (columns types shapes : Nat) :
      OfKind .lengthMismatch (.lengthMismatch columns types shapes)
  | duplicateColumn (column : String) : OfKind .duplicateColumn (.duplicateColumn column)
  | missingColumn (column : String) : OfKind .missingColumn (.missingColumn column)
  | arityMismatch (direction : Direction) (expected actual : Nat) :
      OfKind .arityMismatch (.arityMismatch direction expected actual)
  | duplicateFunction (name : String) : OfKind .duplicateFunction (.duplicateFunction name)
  | execution (text : String) : OfKind .execution (.execution text)
  | malformedTable (defect : TableDefect) : OfKind .malformedTable (.malformedTable defect)

theorem IsRoot.ofKind (h : root.IsRoot) : OfKind root.kind root := by
  cases root with
  | invalidArgument direction index cause => exact absurd rfl (h (.argument direction index) cause)
  | invalidColumn column cause => exact absurd rfl (h (.column column) cause)
  | _ => constructor

/-- **The kind of a root** is the cause it is built from. -/
theorem ofKind_iff (h : root.IsRoot) : OfKind k root ↔ root.kind = k := by
  constructor
  · rintro (_ | _) <;> rfl
  · rintro rfl
    exact h.ofKind

/-! ## Messages -/

/-- The root is told in the words of the library. -/
def Own : Fault → Prop
  | shapeMismatch _ _ reason => reason.Own
  | unsupportedRepresentation target found => target.Own ∧ found.Own
  | execution _ => False
  | malformedTable defect => ∀ words, defect ≠ .stated words
  | _ => True

/-- What the message of a fault begins with. -/
inductive Head
  | argument (direction : Direction)
  | column
  | cause (kind : Kind)
  | stated
  deriving DecidableEq

def Head.words : Head → String
  | argument .input => "Invalid input value at position "
  | argument .output => "Invalid output value at position "
  | column => "Invalid column "
  | cause .shapeMismatch => "The input object cannot be reshaped to "
  | cause .unsupportedRepresentation =>
    "Unknown data type. Only nested sequences, host arrays and arrow tensors can be converted to "
  | cause .unknownElementType => "Unknown array type: "
  | cause .lengthMismatch =>
    "columns, column_types and column_shapes should be of same length if specified. "
  | cause .duplicateColumn => "Duplicate column name: "
  | cause .missingColumn => "Missing column: "
  | cause .arityMismatch => "Expected "
  | cause .duplicateFunction => "UDF is already registered: "
  | cause .malformedTable => "Invalid argument error: "
  | cause .execution | stated => ""

/-- The heads in the words of the library. -/
def Head.own : List Head :=
  [argument .input, argument .output, column, cause .shapeMismatch,
    cause .unsupportedRepresentation, cause .unknownElementType, cause .lengthMismatch,
    cause .duplicateColumn, cause .missingColumn, cause .arityMismatch, cause .duplicateFunction,
    cause .malformedTable]

theorem Head.prefixFree_words : PrefixFree words own := by
  decide +kernel

theorem Head.cause_mem_own (h : k ≠ .execution) : cause k ∈ own := by
  cases k with
  | execution => exact absurd rfl h
  | _ => decide

def head : Fault → Head
  | invalidArgument direction _ _ => .argument direction
  | invalidColumn _ _ => .column
  | execution _ | malformedTable (.stated _) => .stated
  | f => .cause f.kind

/-- What follows. -/
def details : Fault → String
  | shapeMismatch expected _ reason => expected.text ++ (". Error is " ++ reason.text)
  | unsupportedRepresentation target found => target.text ++ (", got " ++ found.text)
  | unknownElementType type => type.name
  | lengthMismatch columns types shapes =>
    "Got " ++ (toString columns ++ (" columns, " ++ (toString types ++ (" column types and " ++
      (toString shapes ++ " column shapes")))))
  | duplicateColumn column => column
  | missingColumn column => column
  | arityMismatch direction expected actual =>
    toString expected ++ (" " ++ (direction.name ++ (" values, got " ++ toString actual)))
  | invalidArgument _ index cause => toString index ++ (": " ++ cause.message)
  | invalidColumn column cause => column ++ (": " ++ cause.message)
  | duplicateFunction name => name
  | execution text => text
  | malformedTable .noColumns => "must either specify a row count or at least one column"
  | malformedTable .unequalLengths => "all columns in a record batch must have the same length"
  | malformedTable (.stated text) => text

theorem message_eq (f : Fault) : f.message = f.head.words ++ f.details := by
  cases f with
  | shapeMismatch expected actual reason => exact Text.append_assoc₃ _ _ _ _
  | unsupportedRepresentation target found =>
    exact congrArg (Head.words (.cause .unsupportedRepresentation) ++ ·) String.append_assoc
  | unknownElementType type => rfl
  | lengthMismatch columns types shapes =>
    refine congrArg (Head.words (.cause .lengthMismatch) ++ ·) ?_
    calc
      "Got " ++ toString columns ++ " columns, " ++ toString types ++ " column types and " ++
          toString shapes ++ " column shapes"
        = "Got " ++ (toString columns ++ (" columns, " ++ (toString types ++
            (" column types and " ++ (toString shapes ++ " column shapes"))))) := by
          simp only [String.append_assoc]
  | duplicateColumn column => rfl
  | missingColumn column => rfl
  | arityMismatch direction expected actual =>
    calc
      (arityMismatch direction expected actual).message
        = "Expected " ++ toString expected ++ " " ++ direction.name ++ " values, got " ++
            toString actual := rfl
      _ = "Expected " ++ (toString expected ++ (" " ++ (direction.name ++ (" values, got " ++
            toString actual)))) := by simp only [String.append_assoc]
  | invalidArgument direction index cause =>
    rw [show (invalidArgument direction index cause).message = _ from
      message_around (.argument direction index) cause]
    cases direction <;> exact Text.append_assoc₃ _ _ _ _
  | invalidColumn column cause =>
    exact (message_around (.column column) cause).trans (Text.append_assoc₃ _ _ _ _)
  | duplicateFunction name => rfl
  | execution text => exact String.empty_append.symm
  | malformedTable defect =>
    cases defect with
    | noColumns => rfl
    | unequalLengths => rfl
    | stated text => exact String.empty_append.symm

theorem details_eq_of_message (hf : f.head ∈ Head.own) (hg : g.head ∈ Head.own)
    (h : f.message = g.message) : f.head = g.head ∧ f.details = g.details := by
  rw [message_eq, message_eq] at h
  exact Head.prefixFree_words.append_inj hf hg h

/-! ## Roots -/

theorem Own.kind_ne (h : root.IsRoot) (hw : root.Own) : root.kind ≠ .execution := by
  intro hk
  have hroot := h.ofKind
  rw [hk] at hroot
  cases hroot
  exact hw

theorem Own.head_eq (h : root.IsRoot) (hw : root.Own) : root.head = .cause root.kind := by
  have hroot := h.ofKind
  generalize root.kind = k at hroot
  cases hroot with
  | execution text => exact hw.elim
  | malformedTable defect =>
    cases defect with
    | stated words => exact absurd rfl (hw words)
    | _ => rfl
  | _ => rfl

theorem Own.head_mem (h : root.IsRoot) (hw : root.Own) : root.head ∈ Head.own := by
  rw [hw.head_eq h]
  exact Head.cause_mem_own (hw.kind_ne h)

/-- **The message tells the kind**: a root has the kind whose words its message begins with. -/
theorem kind_eq_iff_prefix (h : root.IsRoot) (hw : root.Own) (hk : k ≠ .execution) :
    root.kind = k ↔ (Head.cause k).words.toList <+: root.message.toList := by
  have hmessage : root.message.toList =
      (Head.cause root.kind).words.toList ++ root.details.toList := by
    rw [message_eq, hw.head_eq h, String.toList_append]
  constructor
  · rintro rfl
    exact ⟨_, hmessage.symm⟩
  · rintro ⟨rest, hrest⟩
    have hwords : (Head.cause root.kind).words ++ root.details =
        (Head.cause k).words ++ String.ofList rest := by
      rw [← String.toList_inj, String.toList_append, String.toList_append, ← hmessage, ← hrest,
        String.toList_ofList]
    obtain ⟨hcause, -⟩ := Head.prefixFree_words.append_inj (Head.cause_mem_own (hw.kind_ne h))
      (Head.cause_mem_own hk) hwords
    exact Head.cause.inj hcause

/-- The fault without the shape of the array at hand, which no message shows. -/
def shown : Fault → Fault
  | shapeMismatch expected _ reason => shapeMismatch expected [] reason
  | f => f

theorem IsRoot.message_shown (h : root.IsRoot) : root.shown.message = root.message := by
  have hroot := h.ofKind
  generalize root.kind = k at hroot
  cases hroot <;> rfl

theorem prefixFree_direction : PrefixFree Direction.name [.input, .output] := by
  decide

/-- Two roots of one message differ in the shape at hand at most. -/
theorem IsRoot.shown_eq_of_message (h : root.IsRoot) (h' : root'.IsRoot) (hw : root.Own)
    (hw' : root'.Own) (heq : root.message = root'.message) : root.shown = root'.shown := by
  obtain ⟨hhead, hdetails⟩ := details_eq_of_message (hw.head_mem h) (hw'.head_mem h') heq
  rw [hw.head_eq h, hw'.head_eq h'] at hhead
  have hroot := h.ofKind
  have hroot' := h'.ofKind
  rw [← Head.cause.inj hhead] at hroot'
  generalize root.kind = k at hroot hroot'
  cases hroot with
  | shapeMismatch expected actual reason =>
    cases hroot' with
    | shapeMismatch expected' actual' reason' =>
      obtain ⟨rfl, hreason⟩ := message_shapeMismatch_inj heq
      obtain rfl := Misfit.text_inj hw hw' hreason
      rfl
  | unsupportedRepresentation target found =>
    cases hroot' with
    | unsupportedRepresentation target' found' =>
      obtain ⟨rfl, hrest⟩ :=
        Target.prefixFree_text.append_inj hw.1.mem hw'.1.mem hdetails
      rw [Obstacle.text_inj hw.2 hw'.2 ((String.append_right_inj _).mp hrest)]
  | unknownElementType type =>
    cases hroot' with
    | unknownElementType type' => rw [DeclaredType.name_injective hdetails]
  | lengthMismatch columns types shapes =>
    cases hroot' with
    | lengthMismatch columns' types' shapes' =>
      obtain ⟨rfl, hrest⟩ :=
        Text.number_words_inj ((String.append_right_inj _).mp hdetails) rfl rfl
      obtain ⟨rfl, hlast⟩ := Text.number_words_inj ((String.append_right_inj _).mp hrest) rfl rfl
      obtain ⟨rfl, -⟩ := Text.number_append_inj ((String.append_right_inj _).mp hlast) rfl rfl
      rfl
  | duplicateColumn column =>
    cases hroot' with
    | duplicateColumn column' => exact congrArg Fault.duplicateColumn hdetails
  | missingColumn column =>
    cases hroot' with
    | missingColumn column' => exact congrArg Fault.missingColumn hdetails
  | arityMismatch direction expected actual =>
    cases hroot' with
    | arityMismatch direction' expected' actual' =>
      obtain ⟨rfl, hrest⟩ := Text.number_words_inj hdetails rfl rfl
      obtain ⟨rfl, hlast⟩ := prefixFree_direction.append_inj (by cases direction <;> decide)
        (by cases direction' <;> decide) ((String.append_right_inj _).mp hrest)
      rw [Text.decimal_injective ((String.append_right_inj _).mp hlast)]
  | duplicateFunction name =>
    cases hroot' with
    | duplicateFunction name' => exact congrArg Fault.duplicateFunction hdetails
  | execution text => exact hw.elim
  | malformedTable defect =>
    cases hroot' with
    | malformedTable defect' =>
      cases defect <;> cases defect'
      case noColumns.noColumns => rfl
      case noColumns.unequalLengths => exact absurd hdetails (by decide)
      case unequalLengths.noColumns => exact absurd hdetails (by decide)
      case unequalLengths.unequalLengths => rfl
      case stated.noColumns words => exact absurd rfl (hw words)
      case stated.unequalLengths words => exact absurd rfl (hw words)
      case stated.stated words _ => exact absurd rfl (hw words)
      all_goals exact absurd rfl (hw' _)

/-! ## Layers -/

/-- The layer is told so that it can be read: no colon is in the name of a column. -/
def Layer.Plain : Layer → Prop
  | .argument .. => True
  | .column name => ':' ∉ name.toList

theorem head_around_mem (l : Layer) (f : Fault) : (l.around f).head ∈ Head.own := by
  rcases l with ⟨_ | _, index⟩ | name
  · exact (by decide : Head.argument .input ∈ Head.own)
  · exact (by decide : Head.argument .output ∈ Head.own)
  · exact (by decide : Head.column ∈ Head.own)

theorem head_around_ne (l : Layer) (f : Fault) (k : Kind) : (l.around f).head ≠ .cause k := by
  cases l <;> exact Head.noConfusion

/-- The message of a layer tells the layer and the message of the fault in it. -/
theorem around_eq_of_message (hl : Layer.Plain l) (hl' : Layer.Plain l')
    (heq : (l.around f).message = (l'.around g).message) : l = l' ∧ f.message = g.message := by
  obtain ⟨hhead, hdetails⟩ :=
    details_eq_of_message (head_around_mem l f) (head_around_mem l' g) heq
  cases l <;> cases l' <;> cases hhead
  case argument.refl direction index index' =>
    obtain ⟨rfl, hrest⟩ := Text.number_words_inj hdetails rfl rfl
    exact ⟨rfl, (String.append_right_inj _).mp hrest⟩
  case column.refl name name' =>
    have hchars : (name ++ (": " ++ f.message)).toList = (name' ++ (": " ++ g.message)).toList :=
      congrArg String.toList hdetails
    simp only [String.toList_append] at hchars
    obtain ⟨hname, hrest⟩ := Text.upTo_append_inj hl hl' hchars
    exact ⟨congrArg Layer.column (String.toList_inj.mp hname),
      String.toList_inj.mp (List.cons.inj hrest).2⟩

/-- **A message tells its fault.** Two roots in layers, told in the words of the library and without
a colon in the name of a column around them, have one message if and only if the layers are the same
and the roots differ in the shape of the array at hand at most. -/
theorem message_within_eq_iff (h : root.IsRoot) (h' : root'.IsRoot) (hw : root.Own)
    (hw' : root'.Own) (hl : ∀ l ∈ layers, Layer.Plain l) (hl' : ∀ l ∈ layers', Layer.Plain l) :
    (root.within layers).message = (root'.within layers').message ↔
      layers = layers' ∧ root.shown = root'.shown := by
  constructor
  · intro heq
    induction layers generalizing layers' with
    | nil =>
      rcases layers' with _ | ⟨l', layers'⟩
      · exact ⟨rfl, h.shown_eq_of_message h' hw hw' heq⟩
      · have hhead := (details_eq_of_message (hw.head_mem h) (head_around_mem l' _) heq).1
        exact absurd (hhead.symm.trans (hw.head_eq h)) (head_around_ne l' _ _)
    | cons l layers ih =>
      -- a root does not begin like a layer, and two layers are read off one after the other
      rcases layers' with _ | ⟨l', layers'⟩
      · have hhead := (details_eq_of_message (head_around_mem l _) (hw'.head_mem h') heq).1
        exact absurd (hhead.trans (hw'.head_eq h')) (head_around_ne l _ _)
      · obtain ⟨hfirst, hrest⟩ := List.forall_mem_cons.mp hl
        obtain ⟨hfirst', hrest'⟩ := List.forall_mem_cons.mp hl'
        obtain ⟨rfl, hmessage⟩ := around_eq_of_message hfirst hfirst' heq
        obtain ⟨rfl, hshown⟩ := ih hrest hrest' hmessage
        exact ⟨rfl, hshown⟩
  · rintro ⟨rfl, hshown⟩
    rw [message_within, message_within, ← h.message_shown, ← h'.message_shown, hshown]

/-- A colon in the name of a column can hide where the column ends. -/
example :
    ((missingColumn "b: Missing column: c").within [.column "a"]).message =
      ((missingColumn "c").within [.column "a: Missing column: b"]).message := by
  decide

end Fault

end ArrayContract
