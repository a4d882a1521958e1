import ArrayContract.Call.Checked

/-! # Values at their places

The values of one side of a call are checked place by place, in order, up to the first that is
refused. `Accepted` and `FirstRefused` say what that comes to without going through the places one
after the other: every value becomes what the declaration at its place makes of it, or there is a
place whose value is refused and none before it. `checkPlaces_eq_ok_iff` and
`checkPlaces_eq_error_iff` are the two inductions over the places. -/

namespace ArrayContract

open Outcome

variable {d : Direction} {k i : Nat} {spec : ArgumentSpec} {specs : List ArgumentSpec}
  {v : Value} {vs ws : List Value} {fault e : Fault}

/-- Each value with a declaration at its place becomes what the declaration makes of it, and every
other value is passed on. -/
def Accepted (specs : List ArgumentSpec) (vs ws : List Value) : Prop :=
  ws.length = vs.length ∧ ∀ (i : Nat) (v w : Value), vs[i]? = some v → ws[i]? = some w →
    match specs[i]? with
    | some spec => (spec.check v).result = .ok w
    | none => w = v

/-- The value at place `i` is refused by the declaration at this place, and no value before it. -/
structure FirstRefused (specs : List ArgumentSpec) (vs : List Value) (i : Nat) (e : Fault) :
    Prop where
  refused : ∃ spec v, specs[i]? = some spec ∧ vs[i]? = some v ∧ (spec.check v).result = .error e
  earlier : ∀ j < i, ∀ spec v, specs[j]? = some spec → vs[j]? = some v →
    ∃ w, (spec.check v).result = .ok w

theorem accepted_no_specs : Accepted [] vs ws ↔ ws = vs := by
  constructor
  · rintro ⟨hl, h⟩
    refine List.ext_getElem hl fun i hw hv => ?_
    exact h i vs[i] ws[i] (List.getElem?_eq_getElem hv) (List.getElem?_eq_getElem hw)
  · rintro rfl
    exact ⟨rfl, fun i v w hv hw => Option.some.inj (hw.symm.trans hv)⟩

theorem accepted_no_values : Accepted specs [] ws ↔ ws = [] := by
  constructor
  · rintro ⟨hl, -⟩
    exact List.eq_nil_of_length_eq_zero hl
  · rintro rfl
    exact ⟨rfl, by simp⟩

theorem accepted_cons : Accepted (spec :: specs) (v :: vs) ws ↔
    ∃ w ws', (spec.check v).result = .ok w ∧ Accepted specs vs ws' ∧ ws = w :: ws' := by
  constructor
  · rintro ⟨hl, h⟩
    rcases ws with _ | ⟨w, ws⟩
    · exact nomatch hl
    · exact ⟨w, ws, h 0 v w rfl rfl, ⟨Nat.succ.inj hl, fun i => h (i + 1)⟩, rfl⟩
  · rintro ⟨w, ws, hw, ⟨hl, h⟩, rfl⟩
    refine ⟨congrArg (· + 1) hl, fun i x y hx hy => ?_⟩
    rcases i with _ | i
    · obtain rfl := Option.some.inj hx
      obtain rfl := Option.some.inj hy
      exact hw
    · exact h i x y hx hy

theorem not_firstRefused_no_specs : ¬ FirstRefused [] vs i e := by
  rintro ⟨⟨_, _, hs, -, -⟩, -⟩
  exact nomatch hs

theorem not_firstRefused_no_values : ¬ FirstRefused specs [] i e := by
  rintro ⟨⟨_, _, -, hv, -⟩, -⟩
  exact nomatch hv

theorem firstRefused_zero :
    FirstRefused (spec :: specs) (v :: vs) 0 e ↔ (spec.check v).result = .error e := by
  constructor
  · rintro ⟨⟨_, _, hs, hv, he⟩, -⟩
    obtain rfl := Option.some.inj hs
    obtain rfl := Option.some.inj hv
    exact he
  · intro he
    exact ⟨⟨spec, v, rfl, rfl, he⟩, nofun⟩

theorem firstRefused_succ : FirstRefused (spec :: specs) (v :: vs) (i + 1) e ↔
    (∃ w, (spec.check v).result = .ok w) ∧ FirstRefused specs vs i e := by
  constructor
  · rintro ⟨hr, he⟩
    exact ⟨he 0 (Nat.succ_pos i) spec v rfl rfl, hr, fun j hj => he (j + 1) (Nat.succ_lt_succ hj)⟩
  · rintro ⟨hw, hr, he⟩
    refine ⟨hr, fun j hj s x hs hx => ?_⟩
    rcases j with _ | j
    · obtain rfl := Option.some.inj hs
      obtain rfl := Option.some.inj hx
      exact hw
    · exact he j (Nat.lt_of_succ_lt_succ hj) s x hs hx

/-! ## Checking place by place -/

theorem checkPlaces_eq_ok_iff :
    (checkPlaces d k specs vs).result = .ok ws ↔ Accepted specs vs ws := by
  induction vs generalizing specs k ws with
  | nil =>
    rw [checkPlaces_no_values, accepted_no_values, Audit.result_pure, Except.ok.injEq, eq_comm]
  | cons v vs ih =>
    rcases specs with _ | ⟨spec, specs⟩
    · rw [checkPlaces_no_specs, accepted_no_specs, Audit.result_pure, Except.ok.injEq, eq_comm]
    · simp only [result_checkPlaces_cons, bind_eq_ok, mapError_eq_ok, map_eq_ok, ih, accepted_cons]
      constructor
      · rintro ⟨w, hw, ws, hws, rfl⟩
        exact ⟨w, ws, hw, hws, rfl⟩
      · rintro ⟨w, ws, hw, hws, rfl⟩
        exact ⟨w, hw, ws, hws, rfl⟩

/-- The places are counted from `k`. -/
theorem checkPlaces_eq_error_iff : (checkPlaces d k specs vs).result = .error fault ↔
    ∃ i e, FirstRefused specs vs i e ∧ fault = .invalidArgument d (k + i) e := by
  induction vs generalizing specs k with
  | nil =>
    rw [checkPlaces_no_values]
    exact ⟨nofun, fun ⟨_, _, h, _⟩ => (not_firstRefused_no_values h).elim⟩
  | cons v vs ih =>
    rcases specs with _ | ⟨spec, specs⟩
    · rw [checkPlaces_no_specs]
      exact ⟨nofun, fun ⟨_, _, h, _⟩ => (not_firstRefused_no_specs h).elim⟩
    · rw [result_checkPlaces_cons]
      cases hv : (spec.check v).result with
      | error e =>
        -- the head is refused, and nothing behind it counts
        constructor
        · rintro ⟨⟩
          exact ⟨0, e, firstRefused_zero.mpr hv, rfl⟩
        · rintro ⟨i, e', h, rfl⟩
          rcases i with _ | i
          · obtain rfl := Except.error.inj (hv.symm.trans (firstRefused_zero.mp h))
            rfl
          · obtain ⟨⟨w, hw⟩, -⟩ := firstRefused_succ.mp h
            exact nomatch hv.symm.trans hw
      | ok w =>
        rw [mapError_ok, bind_ok, map_eq_error, ih]
        constructor
        · rintro ⟨i, e, h, rfl⟩
          refine ⟨i + 1, e, firstRefused_succ.mpr ⟨⟨w, hv⟩, h⟩, ?_⟩
          rw [Nat.add_right_comm, Nat.add_assoc]
        · rintro ⟨i, e, h, rfl⟩
          rcases i with _ | i
          · exact nomatch hv.symm.trans (firstRefused_zero.mp h)
          · refine ⟨i, e, (firstRefused_succ.mp h).2, ?_⟩
            rw [Nat.add_right_comm, Nat.add_assoc]

end ArrayContract
