import ArrayContract.Proofs.Nested.Layout

/-! # Which sequences are refused

The chain of first items gives a nested sequence its shape (`spine`), and `preorder` lists its
numbers and lists, an outer one before those in it and from left to right, each with the number of
lists around it. Collecting the numbers stops at the first of them that disagrees with the shape
(`leaves_eq`), by induction on the axes that are left: the lists around a node have used up the
others. A sequence in which none disagrees is rectangular.

* `toDense_exact`: a sequence becomes an array exactly if it is rectangular and not too deep, its
  numbers stand in row-major order, and else it is refused as too deep, or as ragged where the first
  node disagrees. -/

namespace ArrayContract.Nested

open Outcome

variable {v : Nested} {s : Shape} {d : Nat}

mutual

/-- The lengths of the lists along the chain of first items. -/
def spine : Nested → Shape
  | int _ => []
  | float _ => []
  | list items => items.length :: spineOf items

/-- The lengths of the lists along the chain that starts with the first of several items. -/
def spineOf : List Nested → Shape
  | [] => []
  | first :: _ => spine first

end

mutual

/-- The numbers and lists of a nested sequence, each with the number of lists around it, where
`depth` of them lie around the sequence. -/
def preorder (depth : Nat) : Nested → List (Nat × Nested)
  | int v => [(depth, int v)]
  | float v => [(depth, float v)]
  | list items => (depth, list items) :: preorderOf (depth + 1) items

/-- The numbers and lists of several nested sequences, one after the other. -/
def preorderOf (depth : Nat) : List Nested → List (Nat × Nested)
  | [] => []
  | v :: vs => preorder depth v ++ preorderOf depth vs

end

/-- A list disagrees with a shape if its length is not that of the axis at its depth, and a number
if it does not lie in as many lists as there are axes. -/
def disagrees (s : Shape) : Nat × Nested → Bool
  | (depth, list items) => s[depth]? ≠ some items.length
  | (depth, _) => depth ≠ s.length

/-- The first node that disagrees with the shape given by the chain of first items, with the number
of lists around it. -/
def disagreement? (v : Nested) : Option (Nat × Nested) := (v.preorder 0).find? (disagrees v.spine)

/-- The numbers, or the refusal of the first node that disagrees. -/
def collected (ls : List Leaf) : Option (Nat × Nested) → Except Obstacle (List Leaf)
  | none => .ok ls
  | some (depth, _) => .error (.ragged depth)

/-! ## The chain of first items -/

theorem spine?_eq (limit : Nat) (v : Nested) :
    v.spine? limit = if v.spine.length ≤ limit then some v.spine else none := by
  induction limit generalizing v with
  | zero => rcases v with v | v | items <;> simp [spine?, spine]
  | succ limit ih =>
    rcases v with v | v | _ | ⟨first, rest⟩
    · simp [spine?, spine]
    · simp [spine?, spine]
    · simp [spine?, spine, spineOf]
    · rw [spine?, ih, spine, spineOf, List.length_cons, List.length_cons]
      by_cases h : first.spine.length ≤ limit
      · simp [h]
      · simp [h]

/-- The chain of first items shows the shape of a rectangular sequence. -/
theorem Rectangular.spine_eq (h : v.Rectangular s) : v.spine = s := by
  induction h with
  | int v => rfl
  | float v => rfl
  | empty => rfl
  | @list items s nonempty _ ih =>
    obtain ⟨first, rest, rfl⟩ := List.exists_cons_of_ne_nil nonempty
    rw [spine, spineOf, ih first (List.mem_cons_self ..)]

/-! ## Collecting the numbers -/

theorem flatten_mapM_cons (f : Nested → Except Obstacle (List Leaf)) (v : Nested)
    (vs : List Nested) : ((v :: vs).mapM f).map List.flatten =
      (f v).bind fun ls => ((vs.mapM f).map List.flatten).map (ls ++ ·) := by
  rw [List.mapM_cons]
  show ((f v).bind fun ls => (vs.mapM f).bind fun lss => .ok (ls :: lss)).map _ = _
  rcases f v with e | ls
  · rfl
  · rcases vs.mapM f with e | lss <;> rfl

/-- The numbers of several sequences of one shape, if none is refused. -/
theorem flatten_leaves_eq {f : Nested → Except Obstacle (List Leaf)} {p : Nat × Nested → Bool}
    (items : List Nested)
    (h : ∀ v ∈ items, f v = collected v.numbers ((v.preorder d).find? p)) :
    (items.mapM f).map List.flatten =
      collected (numbersOf items) ((preorderOf d items).find? p) := by
  induction items with
  | nil => rfl
  | cons v vs ih =>
    have hv := h v (List.mem_cons_self ..)
    have hvs := ih fun w hw => h w (List.mem_cons_of_mem v hw)
    rw [flatten_mapM_cons, hvs, hv, preorderOf, numbersOf, List.find?_append]
    rcases (v.preorder d).find? p with _ | node
    · rcases (preorderOf d vs).find? p with _ | node <;> rfl
    · rfl

/-- A list is refused itself, or it agrees and the first refusal among its items counts. -/
theorem collected_find?_list (s : Shape) (d : Nat) (items : List Nested) :
    collected (list items).numbers (((list items).preorder d).find? (disagrees s)) =
      if s[d]? = some items.length then
        collected (numbersOf items) ((preorderOf (d + 1) items).find? (disagrees s))
      else .error (.ragged d) := by
  rw [preorder, numbers]
  by_cases h : s[d]? = some items.length
  · have hag : disagrees s (d, list items) = false := by simp [disagrees, h]
    rw [if_pos h, List.find?_cons_of_neg (by simp [hag])]
  · have hdis : disagrees s (d, list items) = true := by simp [disagrees, h]
    rw [if_neg h, List.find?_cons_of_pos hdis]
    rfl

/-- **Collecting the numbers** stops at the first node that disagrees with the shape. The lists
around the node have used up the axes in front. -/
theorem leaves_eq (s : Shape) (hd : d ≤ s.length) (v : Nested) :
    leaves d (s.drop d) v = collected v.numbers ((v.preorder d).find? (disagrees s)) := by
  generalize hr : s.drop d = rest
  induction rest generalizing d v with
  | nil =>
    have hlen : d = s.length := by
      have := List.drop_eq_nil_iff.mp hr
      omega
    subst hlen
    rcases v with v | v | items
    · simp [leaves, preorder, disagrees, collected, numbers]
    · simp [leaves, preorder, disagrees, collected, numbers]
    · simp [leaves, preorder, disagrees, collected]
  | cons n rest ih =>
    have hlt : d < s.length := by
      by_contra hge
      rw [List.drop_eq_nil_of_le (by omega)] at hr
      cases hr
    have hn : s[d]? = some n := by
      rw [← Nat.add_zero d, ← List.getElem?_drop, hr]
      rfl
    have hrest : s.drop (d + 1) = rest := by
      rw [← List.drop_drop, hr]
      rfl
    rcases v with v | v | items
    · simp [leaves, preorder, disagrees, collected, Nat.ne_of_lt hlt]
    · simp [leaves, preorder, disagrees, collected, Nat.ne_of_lt hlt]
    · rw [leaves, collected_find?_list, hn]
      by_cases hl : items.length = n
      · rw [if_pos hl, if_pos (congrArg some hl.symm)]
        exact flatten_leaves_eq items fun v _ => ih hlt v hrest
      · rw [if_neg hl, if_neg fun he => hl (Option.some.inj he).symm]

theorem leaves_spine_eq (v : Nested) :
    leaves 0 v.spine v = collected v.numbers v.disagreement? :=
  leaves_eq v.spine (Nat.zero_le _) v

/-! ## Outcomes -/

theorem tight_spine (v : Nested) : Tight v.spine :=
  tight_of_spine? (by rw [spine?_eq, if_pos le_rfl])

theorem leaves_of_rectangular (h : v.Rectangular s) : leaves d s v = .ok v.numbers := by
  induction h generalizing d with
  | int v => rfl
  | float v => rfl
  | empty => rfl
  | @list items s _ _ ih =>
    rw [leaves_list_eq_ok]
    refine ⟨rfl, items.map numbers, ?_, ?_⟩
    · exact List.forall₂_map_right_iff.mpr (List.forall₂_same.mpr fun v hv => ih v hv)
    · rw [numbers, numbersOf_eq_flatMap, List.flatMap_def]

/-- **A sequence is rectangular just if no node disagrees** with the chain of first items. -/
theorem rectangular_spine_iff : v.Rectangular v.spine ↔ v.disagreement? = none := by
  have hl := leaves_spine_eq v
  constructor
  · intro h
    rw [leaves_of_rectangular h] at hl
    rcases hd : v.disagreement? with _ | node
    · rfl
    · rw [hd] at hl
      cases hl
  · intro hd
    rw [hd] at hl
    exact rectangular_of_leaves (tight_spine v) hl

/-- The chain of first items is followed to its end before any node is compared with it. -/
theorem rectangle_eq (v : Nested) :
    v.rectangle = if nestingLimit < v.spine.length then .error .tooDeep
      else (collected v.numbers v.disagreement?).map (v.spine, ·) := by
  unfold rectangle
  rw [spine?_eq]
  by_cases h : v.spine.length ≤ nestingLimit
  · rw [if_pos h, if_neg (by omega), ← leaves_spine_eq]
  · rw [if_neg h, if_pos (by omega)]

theorem toDense_eq_ok_iff {b : Buffer} :
    v.toDense = .ok ⟨s, b⟩ ↔
      v.Rectangular s ∧ s.length ≤ nestingLimit ∧ b = bufferOf v.numbers := by
  constructor
  · intro h
    obtain ⟨hr, hb⟩ : v.Rectangular s ∧ b = bufferOf v.numbers := toDense_eq_ok h
    refine ⟨hr, ?_, hb⟩
    by_contra hlong
    rw [toDense, rectangle_eq, hr.spine_eq, if_pos (by omega)] at h
    cases h
  · rintro ⟨hr, hle, rfl⟩
    obtain rfl := hr.spine_eq
    rw [toDense, rectangle_eq, if_neg (by omega), rectangular_spine_iff.mp hr]
    rfl

theorem toDense_eq_error_iff {fault : Fault} :
    v.toDense = .error fault ↔
      (nestingLimit < v.spine.length ∧ fault = .unsupportedRepresentation .rectangle .tooDeep) ∨
      (v.spine.length ≤ nestingLimit ∧ ∃ depth node, v.disagreement? = some (depth, node) ∧
        fault = .unsupportedRepresentation .rectangle (.ragged depth)) := by
  rw [toDense, rectangle_eq]
  by_cases h : nestingLimit < v.spine.length
  · have hle : ¬ v.spine.length ≤ nestingLimit := by omega
    simp [h, hle, eq_comm]
  · have hle : v.spine.length ≤ nestingLimit := by omega
    rw [if_neg h]
    rcases v.disagreement? with _ | ⟨depth, node⟩
    · simp [collected, h]
    · simp [collected, h, hle, eq_comm]

/-- **A nested sequence becomes an array exactly if it is rectangular** and its lists are not nested
too deep; a sequence has no more than one shape. The array holds as many numbers as the shape
counts, and the number at the end of a path stands at the row-major place of the path. They are the
integers of the sequence if it has numbers and all are integers, and else each in double precision,
an integer as a nearest number of this precision. Any other sequence is refused: as too deep, whatever else is wrong with it, if the chain of
first items is longer than the limit, and else as ragged at the depth of the first node, outer ones
first and from left to right, that disagrees with the lengths along that chain. -/
theorem toDense_exact (v : Nested) :
    (∀ s b, v.toDense = .ok ⟨s, b⟩ ↔ v.Rectangular s ∧ s.length ≤ nestingLimit ∧
      ((∃ ints, ints ≠ [] ∧ v.numbers = ints.map .int ∧ b = ⟨.int64, ints⟩) ∨
        ((v.numbers = [] ∨ ∃ l ∈ v.numbers, l.isInt = false) ∧
          b = ⟨.float64, v.numbers.map Leaf.nearest⟩))) ∧
    (∀ l ∈ v.numbers, l.IsNearest l.nearest) ∧
    (∀ s s', v.Rectangular s → v.Rectangular s' → s = s') ∧
    (∀ s, v.Rectangular s → v.numbers.length = s.prod ∧
      ∀ path l, v.number? path = some l ↔
        s.Within path ∧ v.numbers[s.offset path]? = some l) ∧
    ∀ fault, v.toDense = .error fault ↔
      (nestingLimit < v.spine.length ∧ fault = .unsupportedRepresentation .rectangle .tooDeep) ∨
      (v.spine.length ≤ nestingLimit ∧
        ∃ depth node, (v.preorder 0).find? (disagrees v.spine) = some (depth, node) ∧
          fault = .unsupportedRepresentation .rectangle (.ragged depth)) := by
  refine ⟨fun s b => ?_, fun l _ => l.isNearest_nearest, fun s s' hs hs' => ?_, fun s hs => ?_,
    fun fault => toDense_eq_error_iff⟩
  · rw [toDense_eq_ok_iff, eq_bufferOf_iff]
  · exact hs.spine_eq.symm.trans hs'.spine_eq
  · exact ⟨length_numbers hs, fun path l => number?_eq_some_iff hs⟩

/-- Integers beside a floating-point number. The first of them is the least that double precision does
not hold; of the two closest numbers it becomes the even one. -/
theorem toDense_exact_mixed :
    let v := list [list [.int 9007199254740993, .float 0x3fe0000000000000], list [.int 3, .int (-1)]]
    v.toDense = .ok ⟨[2, 2], .float64,
      [0x4340000000000000, 0x3fe0000000000000, 0x4008000000000000, 0xbff0000000000000]⟩ ∧
    Leaf.IsNearest (.int 9007199254740993) 0x4340000000000000 ∧
    v.number? [1, 0] = some (.int 3) ∧ v.numbers[2]? = some (.int 3) := by
  intro v
  obtain ⟨hdense, hnear, -, hnumbers, -⟩ := toDense_exact v
  have hrect : v.Rectangular [2, 2] := by
    refine .list (by simp) fun w hw => ?_
    simp only [List.mem_cons, List.not_mem_nil, or_false] at hw
    rcases hw with rfl | rfl <;> refine .list (by simp) fun x hx => ?_ <;>
      simp only [List.mem_cons, List.not_mem_nil, or_false] at hx
    · rcases hx with rfl | rfl
      · exact .int _
      · exact .float _
    · rcases hx with rfl | rfl <;> exact .int _
  have hleaves : v.numbers =
      [.int 9007199254740993, .float 0x3fe0000000000000, .int 3, .int (-1)] := rfl
  have hwords : [0x4340000000000000, 0x3fe0000000000000, 0x4008000000000000, 0xbff0000000000000] =
      v.numbers.map Leaf.nearest := by decide +kernel
  have hfloat : ∃ l ∈ v.numbers, l.isInt = false :=
    ⟨.float 0x3fe0000000000000, by simp [hleaves], rfl⟩
  have hfirst : (Leaf.int 9007199254740993).nearest = 0x4340000000000000 := by decide +kernel
  refine ⟨(hdense _ _).mpr ⟨hrect, by decide, Or.inr ⟨Or.inr hfloat, congrArg _ hwords⟩⟩,
    hfirst ▸ hnear _ (by simp [hleaves]), ((hnumbers _ hrect).2 [1, 0] _).mpr ⟨?_, rfl⟩, rfl⟩
  simp

/-- A chain of first items that is too long comes before raggedness elsewhere. -/
example : (list [wrap 64 (.int 1), .int 2]).toDense =
    .error (.unsupportedRepresentation .rectangle .tooDeep) := by rfl

end ArrayContract.Nested
