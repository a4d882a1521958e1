import ArrayContract.Proofs.Nested.Disagreement

/-! # How deep a sequence is read

Collecting the numbers goes from a list to its items, and the shape is given by the first items
alone; so it has to be shown that the other items cannot lead it deeper. Here collecting is a
recursion on the sequence, in which each node is compared with the whole shape (`collect`), and it
gives what `leaves` gives (`collect_eq_leaves`). It goes from a list to the items only if the shape
has an axis at the depth of the list, so it never has more lists around it than there are axes
(`collectTo_eq`): it may be cut off one level further down, whatever is put in place of the rest.

* `rectangle_depth_bounded`: the shape and the numbers of a sequence, or the reason why it has none,
  depend on the nodes with at most 64 lists around them only, and of lists with so many around them
  not even on the length. -/

namespace ArrayContract.Nested

variable {v : Nested} {s : Shape} {d levels limit : Nat}

/-! ## Collecting down the sequence -/

mutual

/-- The numbers of a sequence that `depth` lists lie around, in order. A number has to lie in as many
lists as the shape has axes, and a list has to have the length of the axis at its depth. -/
def collect (s : Shape) (depth : Nat) : Nested → Except Obstacle (List Leaf)
  | int v => if depth = s.length then .ok [.int v] else .error (.ragged depth)
  | float v => if depth = s.length then .ok [.float v] else .error (.ragged depth)
  | list items =>
    if s[depth]? = some items.length then collectItems s (depth + 1) items
    else .error (.ragged depth)

/-- The numbers of several sequences, one after the other, up to the first refusal. -/
def collectItems (s : Shape) (depth : Nat) : List Nested → Except Obstacle (List Leaf)
  | [] => .ok []
  | v :: vs => (collect s depth v).bind fun ls => (collectItems s depth vs).map (ls ++ ·)

end

/-- Collecting the numbers where the recursion goes through so many levels only, and `beyond` stands
in for the rest of it. -/
def collectTo (beyond : Nat → Nested → Except Obstacle (List Leaf)) :
    Nat → Shape → Nat → Nested → Except Obstacle (List Leaf)
  | 0, _, depth, v => beyond depth v
  | _ + 1, s, depth, int v => if depth = s.length then .ok [.int v] else .error (.ragged depth)
  | _ + 1, s, depth, float v => if depth = s.length then .ok [.float v] else .error (.ragged depth)
  | levels + 1, s, depth, list items =>
    if s[depth]? = some items.length then
      (items.mapM (collectTo beyond levels s (depth + 1))).map List.flatten
    else .error (.ragged depth)

theorem collectItems_eq (s : Shape) (d : Nat) (items : List Nested) :
    collectItems s d items = (items.mapM (collect s d)).map List.flatten := by
  induction items with
  | nil => rfl
  | cons v vs ih => rw [collectItems, flatten_mapM_cons, ih]

/-- Collecting stops at the first node that disagrees with the shape. -/
theorem collect_eq (s : Shape) : ∀ (d : Nat) (v : Nested),
    collect s d v = collected v.numbers ((v.preorder d).find? (disagrees s))
  | d, int v => by
    by_cases h : d = s.length <;> simp [collect, preorder, disagrees, collected, numbers, h]
  | d, float v => by
    by_cases h : d = s.length <;> simp [collect, preorder, disagrees, collected, numbers, h]
  | d, list items => by
    have hitems : collectItems s (d + 1) items =
        collected (numbersOf items) ((preorderOf (d + 1) items).find? (disagrees s)) := by
      rw [collectItems_eq]
      exact flatten_leaves_eq items fun v _ => collect_eq s (d + 1) v
    rw [collect, collected_find?_list, hitems]

theorem collect_eq_leaves (s : Shape) (v : Nested) : collect s 0 v = leaves 0 s v := by
  rw [collect_eq, ← leaves_eq s (Nat.zero_le _) v, List.drop_zero]

/-- **No level below the axes is reached.** Behind a list that has the length of the axis at its
depth there is one axis less. -/
theorem collectTo_eq (beyond : Nat → Nested → Except Obstacle (List Leaf)) (hd : d ≤ s.length)
    (hl : s.length < d + levels) (v : Nested) : collectTo beyond levels s d v = collect s d v := by
  induction levels generalizing d v with
  | zero => omega
  | succ levels ih =>
    rcases v with v | v | items
    · rfl
    · rfl
    · rw [collectTo, collect, collectItems_eq]
      by_cases h : s[d]? = some items.length
      · obtain ⟨hlt, -⟩ := List.getElem?_eq_some_iff.mp h
        have hnext : collectTo beyond levels s (d + 1) = collect s (d + 1) :=
          funext fun v => ih hlt (by omega) v
        rw [if_pos h, if_pos h, hnext]
      · rw [if_neg h, if_neg h]

/-- With one level less the numbers of a list are not reached. -/
example : collectTo (fun _ _ => .ok []) 1 [1] 0 (list [int 1]) = .ok [] ∧
    collect [1] 0 (list [int 1]) = .ok [.int 1] :=
  ⟨rfl, rfl⟩

/-! ## What lies deeper -/

/-- A sequence with the lists emptied that so many lists lie around. -/
def cut : Nat → Nested → Nested
  | 0, list _ => list []
  | depth + 1, list items => list (items.map (cut depth))
  | _, v => v

example : cut 1 (list [int 1, list [int 2, list []]]) = list [int 1, list []] := rfl

theorem spine?_cut (limit : Nat) (v : Nested) : (v.cut limit).spine? limit = v.spine? limit := by
  induction limit generalizing v with
  | zero => rcases v with v | v | items <;> rfl
  | succ limit ih =>
    rcases v with v | v | _ | ⟨first, rest⟩
    · rfl
    · rfl
    · rfl
    · rw [cut, List.map_cons, spine?, spine?, ih, List.length_map]

/-- Emptying lists below all axes changes nothing about the numbers collected. -/
theorem leaves_cut (h : s.length ≤ limit) (d : Nat) (v : Nested) :
    leaves d s (v.cut limit) = leaves d s v := by
  induction s generalizing limit d v with
  | nil => rcases v with v | v | items <;> rcases limit with _ | limit <;> rfl
  | cons n s ih =>
    obtain ⟨limit, rfl⟩ : ∃ k, limit = k + 1 := ⟨limit - 1, by simp at h; omega⟩
    rcases v with v | v | items
    · rfl
    · rfl
    · have hitems : leaves (d + 1) s ∘ cut limit = leaves (d + 1) s :=
        funext fun v => ih (by simpa using h) (d + 1) v
      rw [cut, leaves, leaves, List.length_map, List.mapM_map, hitems]

theorem length_le_of_spine? (h : v.spine? limit = some s) : s.length ≤ limit := by
  rw [spine?_eq] at h
  split at h
  · next hle => exact Option.some.inj h ▸ hle
  · cases h

/-- **Emptying the lists at the limit** changes nothing about the outcome. -/
theorem rectangle_cut (v : Nested) : (v.cut nestingLimit).rectangle = v.rectangle := by
  unfold rectangle
  rw [spine?_cut]
  rcases h : v.spine? nestingLimit with _ | s
  · rfl
  · exact congrArg (Except.map (s, ·)) (leaves_cut (length_le_of_spine? h) 0 v)

/-- **A sequence is read to a bounded depth.** If more than 64 lists follow each other as first items,
nothing else is looked at. Else the shape has at most 64 axes, and collecting the numbers down the
sequence comes to the same if it is cut off after one level more than there are axes, whatever it
would do below. So two sequences that differ only in lists with 64 lists around them, in what these
hold and in how much, have the same shape and numbers and give the same array, or are refused for
the same reason. -/
theorem rectangle_depth_bounded :
    (∀ v : Nested, v.spine? 64 = none → v.rectangle = .error .tooDeep) ∧
    (∀ (v : Nested) (s : Shape), v.spine? 64 = some s →
      s.length ≤ 64 ∧ v.rectangle = (collect s 0 v).map (s, ·) ∧
      ∀ beyond, collectTo beyond (s.length + 1) s 0 v = collect s 0 v) ∧
    ∀ v w : Nested, v.cut 64 = w.cut 64 → v.rectangle = w.rectangle ∧ v.toDense = w.toDense := by
  refine ⟨fun v h => ?_, fun v s h => ?_, fun v w h => ?_⟩
  · rw [rectangle, show v.spine? nestingLimit = none from h]
  · refine ⟨length_le_of_spine? h, ?_, fun beyond => ?_⟩
    · rw [rectangle, show v.spine? nestingLimit = some s from h, collect_eq_leaves]
    · exact collectTo_eq beyond (Nat.zero_le _) (by omega) v
  · have hr : v.rectangle = w.rectangle := by
      rw [← rectangle_cut v, ← rectangle_cut w]
      exact congrArg rectangle h
    exact ⟨hr, by rw [toDense, toDense, hr]⟩

/-- Sequences that hide something else below depth 64, and behind an item that is not the first. -/
theorem rectangle_depth_bounded_hidden :
    let holding (v : Nested) : Nested := list [list [int 1], wrap 63 (list [v])]
    let v := holding (wrap 200 (int 2))
    let w := holding (list [])
    v.spine? 64 = some [2, 1] ∧ v.cut 64 = w.cut 64 ∧
      (∀ beyond, collectTo beyond 3 [2, 1] 0 v = .error (.ragged 2)) ∧
      v.rectangle = w.rectangle ∧ w.rectangle = .error (.ragged 2) := by
  intro holding v w
  have hs : v.spine? 64 = some [2, 1] := by rfl
  have hc : v.cut 64 = w.cut 64 := by rfl
  obtain ⟨-, bounded, agree⟩ := rectangle_depth_bounded
  obtain ⟨-, -, hto⟩ := bounded v _ hs
  exact ⟨hs, hc, fun beyond => (hto beyond).trans (by rfl), (agree v w hc).1, by rfl⟩

end ArrayContract.Nested
