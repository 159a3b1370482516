/-
  Mpsx/Trace.lean
  ===============
  **Computations that report on the way.**  A traced computation ends with a value
  or an error, and has reported some events before that, in order; what was
  reported before an error stays reported.

  `result` forgets the events.  It commutes with every way of putting traced
  computations together, so a statement about values and errors never has to
  mention what was reported.

  Offsets are machine numbers, and a product that is none stops the program where
  it stands.  `Stop` keeps this apart from errors, which a caller gets to see.
-/

namespace Mpsx

/-- Why a computation ends without a value: it refuses what it was given, or a product
    overflows. -/
inductive Stop (ε : Type) where
  | refused (error : ε)
  | overflow

/-- The same with another error. -/
def Stop.map {ε δ : Type} (f : ε → δ) : Stop ε → Stop δ
  | refused error => refused (f error)
  | overflow => overflow

/-- The events reported, and how it ended. -/
structure Traced (ω ε α : Type) where
  events : List ω
  result : Except ε α

namespace Traced

variable {ω ε α β γ : Type}

instance : Monad (Traced ω ε) where
  pure a := ⟨[], .ok a⟩
  bind x f :=
    match x.result with
    | .ok a =>
      let y := f a
      ⟨x.events ++ y.events, y.result⟩
    | .error e => ⟨x.events, .error e⟩

/-- Ends with an error. -/
def fail (e : ε) : Traced ω ε α := ⟨[], .error e⟩

/-- Reports one event. -/
def report (event : ω) : Traced ω ε Unit := ⟨[event], .ok ()⟩

/-- Ends as given, and reports nothing. -/
def ofExcept (x : Except ε α) : Traced ω ε α := ⟨[], x⟩

/-- Ends with the value, or with the error if there is none. -/
def require (x : Option α) (e : ε) : Traced ω ε α :=
  match x with
  | some a => pure a
  | none => fail e

/-- The same with another error. -/
def mapError {δ : Type} (f : ε → δ) (x : Traced ω ε α) : Traced ω δ α :=
  ⟨x.events, x.result.mapError f⟩

@[simp] theorem result_pure (a : α) : (pure a : Traced ω ε α).result = .ok a := rfl

@[simp] theorem result_fail (e : ε) : (fail e : Traced ω ε α).result = .error e := rfl

@[simp] theorem result_report (event : ω) : (report event : Traced ω ε Unit).result = .ok () := rfl

@[simp] theorem result_ofExcept (x : Except ε α) : (ofExcept x : Traced ω ε α).result = x := rfl

@[simp] theorem result_mapError {δ : Type} (f : ε → δ) (x : Traced ω ε α) :
    (x.mapError f).result = x.result.mapError f :=
  rfl

@[simp] theorem mapError_ofExcept_ok {δ : Type} (f : ε → δ) (a : α) :
    (ofExcept (.ok a) : Traced ω ε α).mapError f = pure a :=
  rfl

@[simp] theorem result_bind (x : Traced ω ε α) (f : α → Traced ω ε β) :
    (x >>= f).result = x.result >>= fun a => (f a).result := by
  cases x with
  | mk events result => cases result <;> rfl

@[simp] theorem result_map (f : α → β) (x : Traced ω ε α) :
    (f <$> x).result = f <$> x.result := by
  cases x with
  | mk events result => cases result <;> rfl

instance : LawfulMonad (Traced ω ε) := by
  refine LawfulMonad.mk' _ ?_ ?_ ?_
  · rintro α ⟨events, _ | a⟩
    · rfl
    · exact congrArg (Traced.mk · (.ok a)) (List.append_nil events)
  · intro α β a f
    rfl
  · rintro α β γ ⟨events, _ | a⟩ f g
    · rfl
    · simp only [bind]
      cases (f a).result <;> simp

theorem result_mapM (f : α → Traced ω ε β) (xs : List α) :
    (xs.mapM f).result = xs.mapM fun x => (f x).result := by
  induction xs with
  | nil => rfl
  | cons x rest ih =>
    rw [List.mapM_cons, List.mapM_cons, result_bind]
    congr 1
    funext b
    rw [result_bind, ih]
    rfl

end Traced

end Mpsx
