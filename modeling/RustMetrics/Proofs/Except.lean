import Mathlib.Data.List.Forall2

/-! Computations that can fail, one after another. One that succeeds was made of steps that did,
and one that fails does so as the first of its steps that fails. -/

namespace RustMetrics

variable {α β ε : Type}

theorem bind_eq_ok_iff {x : Except ε α} {f : α → Except ε β} {b : β} :
    x >>= f = .ok b ↔ ∃ a, x = .ok a ∧ f a = .ok b := by
  cases x with
  | error e =>
    constructor
    · intro h
      cases h
    · rintro ⟨_, h, _⟩
      cases h
  | ok a =>
    constructor
    · intro h
      exact ⟨a, rfl, h⟩
    · rintro ⟨_, ha, h⟩
      cases ha
      exact h

theorem map_eq_ok_iff {x : Except ε α} {f : α → β} {b : β} :
    x.map f = .ok b ↔ ∃ a, x = .ok a ∧ f a = b := by
  cases x with
  | error e => simp [Except.map]
  | ok a => simp [Except.map]

theorem eq_ok_of_toOption {x : Except ε α} {a : α} (h : x.toOption = some a) : x = .ok a := by
  cases x with
  | error e => cases h
  | ok b => exact congrArg Except.ok (Option.some.inj h)

/-- Computations with the same results are the same but for how they fail. -/
theorem toOption_congr {x y : Except ε α} (h : ∀ a, x = .ok a ↔ y = .ok a) :
    x.toOption = y.toOption := by
  cases x with
  | ok a => rw [(h a).mp rfl]
  | error e =>
    cases y with
    | ok b => cases (h b).mpr rfl
    | error e' => rfl

variable {f : α → Except ε β} {xs rest : List α} {ys : List β} {x : α} {y : β} {e : ε}

/-- Several computations all succeed exactly if each one does. -/
theorem mapM_eq_ok_iff :
    xs.mapM f = .ok ys ↔ List.Forall₂ (fun x y => f x = .ok y) xs ys := by
  induction xs generalizing ys with
  | nil =>
    rw [List.forall₂_nil_left_iff]
    exact ⟨fun h => (Except.ok.inj h).symm, fun h => h ▸ rfl⟩
  | cons x xs ih =>
    rw [List.mapM_cons, List.forall₂_cons_left_iff]
    constructor
    · intro h
      cases hx : f x with
      | error e => simp [hx, bind, Except.bind] at h
      | ok y =>
        cases hxs : xs.mapM f with
        | error e => simp [hx, hxs, bind, Except.bind] at h
        | ok rest =>
          simp only [hx, hxs, bind, Except.bind, pure, Except.pure, Except.ok.injEq] at h
          exact ⟨y, rest, rfl, ih.mp hxs, h.symm⟩
    · rintro ⟨y, rest, hx, hxs, rfl⟩
      simp [hx, ih.mpr hxs, bind, Except.bind, pure, Except.pure]

theorem exists_ok_of_mapM (h : xs.mapM f = .ok ys) (hx : x ∈ xs) : ∃ y, f x = .ok y := by
  replace h := mapM_eq_ok_iff.mp h
  induction h with
  | nil => cases hx
  | cons hhead _ ih =>
    rcases List.mem_cons.mp hx with rfl | hx
    · exact ⟨_, hhead⟩
    · exact ih hx

theorem exists_of_mem_mapM (h : xs.mapM f = .ok ys) (hy : y ∈ ys) : ∃ x ∈ xs, f x = .ok y := by
  replace h := mapM_eq_ok_iff.mp h
  induction h with
  | nil => cases hy
  | cons hhead _ ih =>
    rcases List.mem_cons.mp hy with rfl | hy
    · exact ⟨_, List.mem_cons_self, hhead⟩
    · obtain ⟨x, hx, hf⟩ := ih hy
      exact ⟨x, List.mem_cons_of_mem _ hx, hf⟩

theorem exists_mapM_eq_ok_iff : (∃ ys, xs.mapM f = .ok ys) ↔ ∀ x ∈ xs, ∃ y, f x = .ok y := by
  constructor
  · rintro ⟨ys, h⟩ x hx
    exact exists_ok_of_mapM h hx
  · intro h
    induction xs with
    | nil => exact ⟨[], rfl⟩
    | cons x xs ih =>
      obtain ⟨y, hy⟩ := h x List.mem_cons_self
      obtain ⟨ys, hys⟩ := ih fun x hx => h x (List.mem_cons_of_mem _ hx)
      exact ⟨y :: ys, by rw [List.mapM_cons, hy, hys]; rfl⟩

theorem mapM_append_error (hxs : xs.mapM f = .ok ys) (hx : f x = .error e) :
    (xs ++ x :: rest).mapM f = .error e := by
  rw [List.mapM_append, hxs, List.mapM_cons, hx]
  rfl

theorem mapM_flatMap {γ : Type} (f : β → Except ε γ) (g : α → List β) (xs : List α) :
    (xs.flatMap g).mapM f = (xs.mapM fun x => (g x).mapM f).map List.flatten := by
  induction xs with
  | nil => rfl
  | cons x xs ih =>
    rw [List.flatMap_cons, List.mapM_append, ih, List.mapM_cons]
    cases (g x).mapM f with
    | error e => rfl
    | ok ys => cases xs.mapM fun x => (g x).mapM f <;> rfl

/-- Several computations that can fail in one way only. -/
theorem mapM_ite (p : α → Bool) (f : α → β) (e : ε) (xs : List α) :
    xs.mapM (fun x => if p x then Except.ok (f x) else Except.error e) =
      if xs.all p then .ok (xs.map f) else .error e := by
  induction xs with
  | nil => rfl
  | cons x xs ih =>
    rw [List.mapM_cons, ih, List.all_cons]
    cases p x with
    | false => rfl
    | true => cases xs.all p <;> rfl

/-- Several computations fail as the first of them that fails. -/
theorem mapM_eq_error_iff : xs.mapM f = .error e ↔
    ∃ before x after, xs = before ++ x :: after ∧ (∀ b ∈ before, ∃ y, f b = .ok y) ∧
      f x = .error e := by
  constructor
  · intro h
    induction xs with
    | nil => cases h
    | cons x xs ih =>
      rw [List.mapM_cons] at h
      cases hx : f x with
      | error e' =>
        rw [hx] at h
        cases h
        exact ⟨[], x, xs, rfl, by simp, hx⟩
      | ok y =>
        cases hxs : xs.mapM f with
        | ok ys =>
          rw [hx, hxs] at h
          cases h
        | error e' =>
          rw [hx, hxs] at h
          cases h
          obtain ⟨before, z, after, rfl, hbefore, hz⟩ := ih hxs
          refine ⟨x :: before, z, after, rfl, ?_, hz⟩
          rintro b (_ | ⟨_, hb⟩)
          · exact ⟨y, hx⟩
          · exact hbefore b hb
  · rintro ⟨before, x, after, rfl, hbefore, hx⟩
    obtain ⟨ys, hys⟩ := exists_mapM_eq_ok_iff.mpr hbefore
    exact mapM_append_error hys hx

theorem exists_error_of_mapM (h : xs.mapM f = .error e) : ∃ x ∈ xs, f x = .error e := by
  obtain ⟨before, x, after, rfl, _, hx⟩ := mapM_eq_error_iff.mp h
  exact ⟨x, by simp, hx⟩

/-- How a computation fails, if it does. -/
def failure? : Except ε α → Option ε
  | .ok _ => none
  | .error e => some e

theorem failure?_eq_none_iff {x : Except ε α} : failure? x = none ↔ ∃ a, x = .ok a := by
  cases x <;> simp [failure?]

theorem failure?_eq_some_iff {x : Except ε α} : failure? x = some e ↔ x = .error e := by
  cases x <;> simp [failure?]

@[simp] theorem failure?_map (x : Except ε α) (f : α → β) : failure? (x.map f) = failure? x := by
  cases x <;> rfl

theorem failure?_mapM_cons (f : α → Except ε β) (x : α) (xs : List α) :
    failure? ((x :: xs).mapM f) = (failure? (f x)).or (failure? (xs.mapM f)) := by
  rw [List.mapM_cons]
  cases f x with
  | error e => rfl
  | ok y => cases xs.mapM f <;> rfl

theorem failure?_mapM_append (f : α → Except ε β) (xs ys : List α) :
    failure? ((xs ++ ys).mapM f) = (failure? (xs.mapM f)).or (failure? (ys.mapM f)) := by
  induction xs with
  | nil => rfl
  | cons x xs ih =>
    rw [List.cons_append, failure?_mapM_cons, ih, failure?_mapM_cons, Option.or_assoc]

theorem failure?_mapM_filter {p : α → Bool} (h : ∀ x ∈ xs, p x = false → failure? (f x) = none) :
    failure? (xs.mapM f) = failure? ((xs.filter p).mapM f) := by
  induction xs with
  | nil => rfl
  | cons x xs ih =>
    have ih := ih fun x hx => h x (List.mem_cons_of_mem _ hx)
    cases hp : p x with
    | true => rw [List.filter_cons_of_pos hp, failure?_mapM_cons, failure?_mapM_cons, ih]
    | false =>
      rw [List.filter_cons_of_neg (by simp [hp]), failure?_mapM_cons, h x List.mem_cons_self hp,
        Option.none_or, ih]

/-- Computations that fail as several others do, one after another, fail together as those. -/
theorem failure?_mapM_flatMap {γ δ : Type} {f : α → Except ε β} {g : γ → Except ε δ}
    {parts : α → List γ} (h : ∀ x ∈ xs, failure? (f x) = failure? ((parts x).mapM g)) :
    failure? (xs.mapM f) = failure? ((xs.flatMap parts).mapM g) := by
  induction xs with
  | nil => rfl
  | cons x xs ih =>
    rw [List.flatMap_cons, failure?_mapM_cons, failure?_mapM_append, h x List.mem_cons_self,
      ih fun x hx => h x (List.mem_cons_of_mem _ hx)]

end RustMetrics
