/-
  Mpsx/Proofs/Traced.lean
  =======================
  **When a traced computation succeeds.**  A sequence succeeds if its parts do,
  one after the other; a computation over a list succeeds if it does on every
  entry, and the first entry on which it does not decides how it fails.  These are
  the rules by which the statements about reading and converting take a computation
  apart and put it together, so that no proof looks at events.

  Where events are the subject, the last section has the rules for them: what is
  reported by a sequence, and by a computation over a list.
-/

import Mathlib.Data.List.Forall2
import Mpsx.Trace

namespace Mpsx

/-- In related lists, everything on the right has something on the left it is related to. -/
theorem exists_of_forall₂_right {α β : Type} {R : α → β → Prop} {xs : List α} {ys : List β}
    (h : List.Forall₂ R xs ys) {y : β} (hy : y ∈ ys) : ∃ x ∈ xs, R x y := by
  induction h with
  | nil => cases hy
  | @cons x y' xs ys hxy _ ih =>
    rcases List.mem_cons.mp hy with rfl | hy
    · exact ⟨x, by simp, hxy⟩
    · obtain ⟨x', hx', hr⟩ := ih hy
      exact ⟨x', by simp [hx'], hr⟩

/-! ### Sequences -/

section Sequence

variable {ε α β : Type} {x : Except ε α} {f : α → Except ε β}

theorem exceptBind_eq_ok_iff {b : β} : x >>= f = .ok b ↔ ∃ a, x = .ok a ∧ f a = .ok b := by
  cases x with
  | error e =>
    constructor
    · intro h
      cases h
    · rintro ⟨a, ha, -⟩
      cases ha
  | ok a =>
    constructor
    · intro h
      exact ⟨a, rfl, h⟩
    · rintro ⟨a', ha, h⟩
      cases ha
      exact h

theorem exceptBind_eq_error_iff {e : ε} :
    x >>= f = .error e ↔ x = .error e ∨ ∃ a, x = .ok a ∧ f a = .error e := by
  cases x with
  | error e' =>
    constructor
    · intro h
      cases h
      exact .inl rfl
    · rintro (h | ⟨a, ha, -⟩)
      · cases h
        rfl
      · cases ha
  | ok a =>
    constructor
    · intro h
      exact .inr ⟨a, rfl, h⟩
    · rintro (h | ⟨a', ha, h⟩)
      · cases h
      · cases ha
        exact h

theorem mapError_eq_ok_iff {δ : Type} {g : ε → δ} {a : α} : x.mapError g = .ok a ↔ x = .ok a := by
  cases x with
  | error e => simp [Except.mapError]
  | ok a' => simp [Except.mapError]

end Sequence

/-! ### First faults -/

/-- The first entry of a list that is not sound, with what is wrong with it. -/
def FirstFault {α ε : Type} (Sound : α → Prop) (Fault : α → ε → Prop) (xs : List α) (e : ε) :
    Prop :=
  ∃ before x after, xs = before ++ x :: after ∧ (∀ y ∈ before, Sound y) ∧ Fault x e

section FirstFault

variable {α ε : Type} {Sound Sound' : α → Prop} {Fault Fault' : α → ε → Prop} {e : ε}

theorem not_firstFault_nil : ¬FirstFault Sound Fault [] e := by
  rintro ⟨before, x, after, hnil, -⟩
  simp at hnil

theorem firstFault_cons_iff {x : α} {xs : List α} :
    FirstFault Sound Fault (x :: xs) e ↔ Fault x e ∨ Sound x ∧ FirstFault Sound Fault xs e := by
  constructor
  · rintro ⟨before, y, after, hsplit, hsound, hfault⟩
    rcases List.cons_eq_append_iff.mp hsplit with ⟨rfl, hrest⟩ | ⟨before', rfl, hrest⟩
    · cases hrest
      exact .inl hfault
    · refine .inr ⟨hsound x (by simp), before', y, after, hrest, ?_, hfault⟩
      intro z hz
      exact hsound z (by simp [hz])
  · rintro (hfault | ⟨hx, before, y, after, rfl, hsound, hfault⟩)
    · exact ⟨[], x, xs, rfl, by simp, hfault⟩
    · exact ⟨x :: before, y, after, rfl, by simpa [hx] using hsound, hfault⟩

theorem FirstFault.congr (hsound : ∀ x, Sound x ↔ Sound' x) (hfault : ∀ x, Fault x e ↔ Fault' x e)
    (xs : List α) : FirstFault Sound Fault xs e ↔ FirstFault Sound' Fault' xs e := by
  simp only [FirstFault, hsound, hfault]

end FirstFault

/-! ### Traced computations -/

namespace Traced

variable {ω ε α β : Type}

theorem bind_eq_ok_iff {x : Traced ω ε α} {f : α → Traced ω ε β} {b : β} :
    (x >>= f).result = .ok b ↔ ∃ a, x.result = .ok a ∧ (f a).result = .ok b := by
  rw [result_bind, exceptBind_eq_ok_iff]

theorem mapError_eq_ok_iff {δ : Type} {f : ε → δ} {x : Traced ω ε α} {a : α} :
    (x.mapError f).result = .ok a ↔ x.result = .ok a :=
  Mpsx.mapError_eq_ok_iff

theorem mapError_eq_error_iff {δ : Type} {f : ε → δ} {x : Traced ω ε α} {d : δ} :
    (x.mapError f).result = .error d ↔ ∃ e, d = f e ∧ x.result = .error e := by
  rw [result_mapError]
  cases x.result with
  | error e => simp [Except.mapError, eq_comm]
  | ok a => simp [Except.mapError]

theorem exists_bind_iff {x : Traced ω ε α} {f : α → Traced ω ε β} :
    (∃ b, (x >>= f).result = .ok b) ↔ ∃ a, x.result = .ok a ∧ ∃ b, (f a).result = .ok b := by
  simp only [bind_eq_ok_iff]
  constructor
  · rintro ⟨b, a, ha, hb⟩
    exact ⟨a, ha, b, hb⟩
  · rintro ⟨a, ha, b, hb⟩
    exact ⟨b, a, ha, hb⟩

/-- What is done to a value afterwards does not matter for success. -/
theorem exists_bind_pure_iff {x : Traced ω ε α} {f : α → β} :
    (∃ b, (x >>= fun a => pure (f a)).result = .ok b) ↔ ∃ a, x.result = .ok a := by
  rw [exists_bind_iff]
  simp

/-- Reporting something on the way, or not, does not change the result. -/
theorem result_ite_report {c : Prop} [Decidable c] (event : ω) (x : Traced ω ε α) :
    (if c then (do report event; x) else x).result = x.result := by
  split
  · rw [result_bind]
    rfl
  · rfl

theorem require_eq_ok_iff {x : Option α} {e : ε} {a : α} :
    (require x e : Traced ω ε α).result = .ok a ↔ x = some a := by
  cases x with
  | none =>
    constructor
    · intro h
      cases h
    · intro h
      cases h
  | some a' =>
    constructor
    · intro h
      cases h
      rfl
    · intro h
      cases h
      rfl

/-- Two lists whose entries correspond give the same, if corresponding entries do. -/
theorem mapM_eq_of_forall₂ {γ : Type} {R : γ → α → Prop} {f : α → Traced ω ε β}
    {g : γ → Traced ω ε β} {xs : List γ} {ys : List α} (h : List.Forall₂ R xs ys)
    (hR : ∀ x ∈ xs, ∀ y, R x y → f y = g x) : ys.mapM f = xs.mapM g := by
  induction h with
  | nil => rfl
  | cons hxy _ ih =>
    rw [List.mapM_cons, List.mapM_cons, hR _ (by simp) _ hxy, ih fun x hx => hR x (by simp [hx])]

/-- Computations that agree on every entry of a list agree on the list, in what they report
    too. -/
theorem mapM_congr {f g : α → Traced ω ε β} {xs : List α} (h : ∀ x ∈ xs, f x = g x) :
    xs.mapM f = xs.mapM g :=
  mapM_eq_of_forall₂ (List.forall₂_same.mpr h) fun _ _ _ hxy => hxy

/-- Entry by entry, and the results in the order of the entries. -/
theorem mapM_eq_ok_iff {f : α → Traced ω ε β} {xs : List α} {ys : List β} :
    (xs.mapM f).result = .ok ys ↔ List.Forall₂ (fun x y => (f x).result = .ok y) xs ys := by
  induction xs generalizing ys with
  | nil =>
    rw [List.mapM_nil, List.forall₂_nil_left_iff]
    constructor
    · intro h
      cases h
      rfl
    · rintro rfl
      rfl
  | cons x rest ih =>
    rw [List.mapM_cons, bind_eq_ok_iff, List.forall₂_cons_left_iff]
    constructor
    · rintro ⟨y, hy, h⟩
      obtain ⟨more, hmore, h⟩ := bind_eq_ok_iff.mp h
      cases h
      exact ⟨y, more, hy, ih.mp hmore, rfl⟩
    · rintro ⟨y, more, hy, hmore, rfl⟩
      exact ⟨y, hy, bind_eq_ok_iff.mpr ⟨more, ih.mpr hmore, rfl⟩⟩

theorem exists_forall₂_iff {f : α → Traced ω ε β} {xs : List α} :
    (∃ ys, List.Forall₂ (fun x y => (f x).result = .ok y) xs ys) ↔
      ∀ x ∈ xs, ∃ y, (f x).result = .ok y := by
  induction xs with
  | nil => simp
  | cons x rest ih =>
    simp only [List.forall₂_cons_left_iff, List.forall_mem_cons, ← ih]
    constructor
    · rintro ⟨_, y, more, hy, hmore, -⟩
      exact ⟨⟨y, hy⟩, more, hmore⟩
    · rintro ⟨⟨y, hy⟩, more, hmore⟩
      exact ⟨_, y, more, hy, hmore, rfl⟩

theorem exists_mapM_iff {f : α → Traced ω ε β} {xs : List α} :
    (∃ ys, (xs.mapM f).result = .ok ys) ↔ ∀ x ∈ xs, ∃ y, (f x).result = .ok y := by
  simp only [mapM_eq_ok_iff]
  exact exists_forall₂_iff

theorem bind_eq_error_iff {x : Traced ω ε α} {f : α → Traced ω ε β} {e : ε} :
    (x >>= f).result = .error e ↔
      x.result = .error e ∨ ∃ a, x.result = .ok a ∧ (f a).result = .error e := by
  rw [result_bind, exceptBind_eq_error_iff]

/-- The first entry that fails decides. -/
theorem mapM_eq_error_iff {f : α → Traced ω ε β} {xs : List α} {e : ε} :
    (xs.mapM f).result = .error e ↔
      FirstFault (fun x => ∃ y, (f x).result = .ok y) (fun x e => (f x).result = .error e)
        xs e := by
  induction xs with
  | nil =>
    constructor
    · intro h
      cases h
    · intro h
      exact absurd h not_firstFault_nil
  | cons x rest ih =>
    rw [List.mapM_cons, bind_eq_error_iff, firstFault_cons_iff, ← ih]
    constructor
    · rintro (h | ⟨y, hy, h⟩)
      · exact .inl h
      · rcases bind_eq_error_iff.mp h with h | ⟨more, -, h⟩
        · exact .inr ⟨⟨y, hy⟩, h⟩
        · cases h
    · rintro (h | ⟨⟨y, hy⟩, h⟩)
      · exact .inl h
      · exact .inr ⟨y, hy, bind_eq_error_iff.mpr (.inl h)⟩

/-! ### What is reported -/

/-- A computation is what it reports and how it ends. -/
theorem ext {x y : Traced ω ε α} (hevents : x.events = y.events) (hresult : x.result = y.result) :
    x = y := by
  cases x
  cases y
  cases hevents
  cases hresult
  rfl

@[simp] theorem events_map (f : α → β) (x : Traced ω ε α) : (f <$> x).events = x.events := by
  cases x with
  | mk events result =>
    cases result with
    | error e => rfl
    | ok a => exact List.append_nil events

/-- What is done to the values of a list one by one can be done to the list. -/
theorem mapM_map_comm {γ : Type} (f : α → Traced ω ε β) (g : β → γ) (xs : List α) :
    (xs.mapM fun x => g <$> f x) = List.map g <$> xs.mapM f := by
  induction xs with
  | nil => rfl
  | cons x rest ih =>
    rw [List.mapM_cons, List.mapM_cons, ih]
    simp only [bind_pure_comp, map_bind, bind_map_left, Functor.map_map, List.map_cons]

theorem mem_events_bind_iff {x : Traced ω ε α} {f : α → Traced ω ε β} {event : ω} :
    event ∈ (x >>= f).events ↔
      event ∈ x.events ∨ ∃ a, x.result = .ok a ∧ event ∈ (f a).events := by
  cases x with
  | mk events result =>
    cases result with
    | error e =>
      show event ∈ events ↔ _
      simp
    | ok a =>
      show event ∈ events ++ (f a).events ↔ _
      simp

/-- An entry of a list has its say if all entries before it succeed. -/
theorem mem_events_mapM_iff {f : α → Traced ω ε β} {xs : List α} {event : ω} :
    event ∈ (xs.mapM f).events ↔ ∃ before x after, xs = before ++ x :: after ∧
      (∀ y ∈ before, ∃ b, (f y).result = .ok b) ∧ event ∈ (f x).events := by
  -- the same shape as a first fault, with an event in place of the error
  show _ ↔ FirstFault (fun x => ∃ y, (f x).result = .ok y) (fun x event => event ∈ (f x).events)
    xs event
  induction xs with
  | nil =>
    constructor
    · intro h
      cases h
    · intro h
      exact absurd h not_firstFault_nil
  | cons x rest ih =>
    rw [List.mapM_cons, mem_events_bind_iff, firstFault_cons_iff, ← ih]
    constructor
    · rintro (h | ⟨y, hy, h⟩)
      · exact .inl h
      · rcases mem_events_bind_iff.mp h with h | ⟨more, -, h⟩
        · exact .inr ⟨⟨y, hy⟩, h⟩
        · cases h
    · rintro (h | ⟨⟨y, hy⟩, h⟩)
      · exact .inl h
      · exact .inr ⟨y, hy, mem_events_bind_iff.mpr (.inl h)⟩

end Traced

end Mpsx
