/-
  Mpsx/Proofs/Wire/Appended.lean
  ==============================
  **Messages one after the other.**  All readers share one cursor over the whole input,
  and they do look at how much of it is left: lengths are checked against it, and it
  tells where a nested message ends.  Still, what a reader accepts it accepts in the
  same way with more bytes behind it (`Reader.Steady`), because an end that is counted
  from the back moves along with the back.

  So a message that can be read may have anything behind it: reading both gives its
  fields and then whatever reading the rest gives, be it fields or a fault
  (`Schema.decode_append`).
-/

import Mpsx.Proofs.Wire.Depth

namespace Mpsx.Wire

namespace Reader

variable {α β : Type}

/-- A reader that takes at least the given number of bytes from what it accepts, and
    accepts it as well with more bytes behind it. -/
def Steady (least : Nat) (r : Reader α) : Prop :=
  ∀ bytes a rest, r (.of bytes) = .ok (a, .of rest) →
    rest.length + least ≤ bytes.length ∧
      ∀ more, r (.of (bytes ++ more)) = .ok (a, .of (rest ++ more))

theorem bind_of_eq_ok {r : Reader α} {f : α → Reader β} {bytes rest : Bytes} {b : β}
    (h : (r >>= f) (.of bytes) = .ok (b, .of rest)) :
    ∃ a mid, r (.of bytes) = .ok (a, .of mid) ∧ f a (.of mid) = .ok (b, .of rest) := by
  obtain ⟨a, c, hr, hf⟩ := bind_eq_ok h
  rw [c.eq_of] at hr hf
  exact ⟨a, c.rest, hr, hf⟩

/-! ### Steady readers -/

section Steady

variable {r : Reader α} {f : α → Reader β} {n : Nat}

theorem Steady.any (h : Steady n r) : Steady 0 r := by
  intro bytes a rest hr
  obtain ⟨hlen, hmore⟩ := h bytes a rest hr
  exact ⟨by omega, hmore⟩

theorem steady_pure (a : α) : Steady 0 (pure a : Reader α) := by
  intro bytes b rest h
  cases h
  exact ⟨Nat.le_refl _, fun _ => rfl⟩

theorem steady_fail (n : Nat) (cause : Cause) : Steady n (fail cause : Reader α) := by
  intro bytes a rest h
  cases h

theorem Steady.bind (hr : Steady n r) (hf : ∀ a, Steady 0 (f a)) : Steady n (r >>= f) := by
  intro bytes b rest h
  obtain ⟨a, mid, hra, hfa⟩ := bind_of_eq_ok h
  obtain ⟨hlen, hmore⟩ := hr bytes a mid hra
  obtain ⟨hlen', hmore'⟩ := hf a mid b rest hfa
  refine ⟨by omega, ?_⟩
  intro more
  rw [bind_ok (hmore more), hmore' more]

theorem Steady.map (hr : Steady n r) (f : α → β) : Steady n (f <$> r) := by
  rw [map_eq_pure_bind]
  exact hr.bind fun a => steady_pure (f a)

theorem Steady.ite {c : Prop} [Decidable c] {r₁ r₂ : Reader α} (h₁ : Steady n r₁)
    (h₂ : Steady n r₂) : Steady n (if c then r₁ else r₂) := by
  split
  · exact h₁
  · exact h₂

theorem Steady.within (hr : Steady n r) (message field : String) :
    Steady n (within message field r) := by
  intro bytes a rest h
  obtain ⟨hlen, hmore⟩ := hr bytes a rest (within_eq_ok h)
  refine ⟨hlen, ?_⟩
  intro more
  simp only [Reader.within, hmore more]

theorem steady_byte : Steady 1 byte := by
  intro bytes a rest h
  cases bytes with
  | nil => cases h
  | cons b bytes =>
    rw [byte_cons] at h
    cases h
    exact ⟨Nat.le_refl _, fun _ => rfl⟩

theorem steady_take (n : Nat) : Steady 0 (take n) := by
  intro bytes a rest h
  by_cases hle : n ≤ bytes.length
  · rw [take_apply hle] at h
    cases h
    refine ⟨by simp, ?_⟩
    intro more
    rw [take_apply (by simp; omega), List.take_append_of_le_length hle,
      List.drop_append_of_le_length hle]
  · rw [take_apply_of_lt (by omega)] at h
    cases h

end Steady

/-! ### Collecting -/

/-- Items up to a limit that is counted from the back: with more bytes at the back the
    limit is higher by as much. -/
theorem collect_of_append {item : Reader α} (hitem : Steady 0 item) {limit steps : Nat}
    {found xs : List α} {bytes rest : Bytes}
    (h : collect item limit steps found (.of bytes) = .ok (xs, .of rest)) :
    rest.length ≤ bytes.length ∧ ∀ more : Bytes,
      collect item (limit + more.length) steps found (.of (bytes ++ more)) =
        .ok (xs, .of (rest ++ more)) := by
  induction steps generalizing found bytes with
  | zero =>
    cases h
    exact ⟨Nat.le_refl _, fun _ => rfl⟩
  | succ steps ih =>
    rw [collect, bind_ok (left_apply _)] at h
    by_cases hend : bytes.length ≤ limit
    · rw [if_pos hend] at h
      cases h
      refine ⟨Nat.le_refl _, ?_⟩
      intro more
      rw [collect, bind_ok (left_apply _), if_pos (by simp; omega)]
      rfl
    · rw [if_neg hend] at h
      obtain ⟨a, mid, ha, h⟩ := bind_of_eq_ok h
      obtain ⟨hlen, hmore⟩ := hitem bytes a mid ha
      obtain ⟨hlen', hmore'⟩ := ih h
      refine ⟨by omega, ?_⟩
      intro more
      rw [collect, bind_ok (left_apply _), if_neg (by simp; omega), bind_ok (hmore more),
        hmore' more]

/-- With as many steps as bytes, more steps change nothing. -/
theorem collect_steps {item : Reader α} (hitem : Steady 1 item) {limit steps steps' : Nat}
    (found : List α) {bytes : Bytes} (h : bytes.length ≤ steps) (h' : bytes.length ≤ steps') :
    collect item limit steps found (.of bytes) = collect item limit steps' found (.of bytes) := by
  induction steps generalizing steps' found bytes with
  | zero =>
    obtain rfl := List.eq_nil_of_length_eq_zero (Nat.le_zero.mp h)
    cases steps' with
    | zero => rfl
    | succ steps' =>
      rw [collect, collect, bind_ok (left_apply _), if_pos (by simp)]
  | succ steps ih =>
    cases steps' with
    | zero =>
      obtain rfl := List.eq_nil_of_length_eq_zero (Nat.le_zero.mp h')
      rw [collect, collect, bind_ok (left_apply _), if_pos (by simp)]
    | succ steps' =>
      rw [collect, collect, bind_ok (left_apply _), bind_ok (left_apply _)]
      split
      · rfl
      · rw [bind_apply, bind_apply]
        cases ha : item (.of bytes) with
        | error e => rfl
        | ok p =>
          obtain ⟨a, c⟩ := p
          rw [c.eq_of] at ha
          obtain ⟨hlen, -⟩ := hitem bytes a c.rest ha
          show collect item limit steps (a :: found) c = collect item limit steps' (a :: found) c
          rw [c.eq_of]
          exact ih (a :: found) (by omega) (by omega)

theorem collect_found (item : Reader α) (limit steps : Nat) (found : List α) (c : Cursor) :
    collect item limit steps found c =
      (collect item limit steps [] c).map fun p => (found.reverse ++ p.1, p.2) := by
  induction steps generalizing found c with
  | zero =>
    rw [collect, collect, pure_apply, pure_apply]
    simp [Except.map]
  | succ steps ih =>
    rw [collect, collect, c.eq_of, bind_ok (left_apply _), bind_ok (left_apply _)]
    split
    · rw [pure_apply, pure_apply]
      simp [Except.map]
    · rw [bind_apply, bind_apply]
      cases item (.of c.rest) with
      | error e => rfl
      | ok p =>
        show collect item limit steps (p.1 :: found) p.2 =
          (collect item limit steps [p.1] p.2).map _
        rw [ih (p.1 :: found), ih [p.1]]
        cases collect item limit steps [] p.2 with
        | error e => rfl
        | ok q => simp [Except.map]

/-- Items that fill some bytes, and then whatever the bytes behind them hold. -/
theorem collect_append {item : Reader α} (hitem : Steady 1 item) {steps : Nat}
    {found xs : List α} {bytes : Bytes} {c : Cursor} (hsteps : bytes.length ≤ steps)
    (h : collect item 0 steps found (.of bytes) = .ok (xs, c)) (more : Bytes) :
    collect item 0 (steps + more.length) found (.of (bytes ++ more)) =
      collect item 0 more.length xs.reverse (.of more) := by
  induction steps generalizing found bytes with
  | zero =>
    obtain rfl := List.eq_nil_of_length_eq_zero (Nat.le_zero.mp hsteps)
    cases h
    rw [Nat.zero_add, List.nil_append, List.reverse_reverse]
  | succ steps ih =>
    rw [collect, bind_ok (left_apply _)] at h
    by_cases hend : bytes.length ≤ 0
    · obtain rfl := List.eq_nil_of_length_eq_zero (Nat.le_zero.mp hend)
      cases h
      rw [List.nil_append, List.reverse_reverse]
      exact collect_steps hitem found (by omega) (Nat.le_refl _)
    · rw [if_neg hend] at h
      obtain ⟨a, c', ha, h⟩ := bind_eq_ok h
      rw [c'.eq_of] at ha h
      obtain ⟨hlen, hmore⟩ := hitem bytes a c'.rest ha
      rw [Nat.succ_add, collect, bind_ok (left_apply _),
        if_neg (by simp only [List.length_append]; omega), bind_ok (hmore more), ih (by omega) h]

/-- **Read to its end, and then on.** -/
theorem all_append {item : Reader α} (hitem : Steady 1 item) {xs : List α} {bytes : Bytes}
    {c : Cursor} (h : all item (.of bytes) = .ok (xs, c)) (more : Bytes) :
    all item (.of (bytes ++ more)) =
      (all item (.of more)).map fun p => (xs ++ p.1, p.2) := by
  rw [all, bind_ok (left_apply _)] at h
  rw [all, bind_ok (left_apply _), bind_ok (left_apply _), List.length_append,
    collect_append hitem (Nat.le_refl _) h more, collect_found, List.reverse_reverse]

end Reader

open Reader

/-! ### Numbers, keys and lengths -/

theorem steady_varintFrom (more : Nat) : Steady 1 (varintFrom more) := by
  induction more with
  | zero =>
    apply steady_byte.bind
    intro b
    exact (steady_pure _).ite (steady_fail 0 _)
  | succ more ih =>
    apply steady_byte.bind
    intro b
    apply (steady_pure _).ite
    exact ih.any.bind fun n => steady_pure _

theorem steady_readVarint : Steady 1 readVarint := steady_varintFrom 9

theorem steady_readKey : Steady 1 readKey := by
  apply steady_readVarint.bind
  intro key
  apply (steady_fail 0 _).ite
  cases WireType.ofCode? (key % 8) with
  | none => exact steady_fail 0 _
  | some form => exact (steady_fail 0 _).ite (steady_pure _)

theorem steady_readNumber (form : NumberForm) : Steady 0 (readNumber form) := by
  cases form with
  | varint => exact steady_readVarint.any.bind fun n => steady_pure _
  | fixed32 => exact (steady_take 4).bind fun bytes => steady_pure _
  | fixed64 => exact (steady_take 8).bind fun bytes => steady_pure _

theorem readLength_eq_ok {bytes rest : Bytes} {n : Nat}
    (h : readLength (.of bytes) = .ok (n, .of rest)) :
    readVarint (.of bytes) = .ok (n, .of rest) ∧ n ≤ rest.length := by
  obtain ⟨length, mid, hlength, h⟩ := bind_of_eq_ok h
  rw [bind_ok (left_apply _)] at h
  by_cases hle : mid.length < length
  · rw [if_pos hle] at h
    cases h
  · rw [if_neg hle] at h
    cases h
    exact ⟨hlength, Nat.le_of_not_lt hle⟩

/-- A length is checked against everything that is left, and that only grows. -/
theorem steady_readLength : Steady 0 readLength := by
  intro bytes n rest h
  obtain ⟨hlength, hle⟩ := readLength_eq_ok h
  obtain ⟨hlen, hmore⟩ := steady_readVarint bytes n rest hlength
  refine ⟨by omega, ?_⟩
  intro more
  rw [readLength, bind_ok (hmore more), bind_ok (left_apply _),
    if_neg (by simp only [List.length_append]; omega)]
  rfl

theorem steady_readDelimited {α : Type} {item : Reader α} (hitem : Steady 0 item) :
    Steady 0 (readDelimited item) := by
  intro bytes xs rest h
  obtain ⟨length, mid, hlength, h⟩ := bind_of_eq_ok h
  obtain ⟨hlen, hmore⟩ := steady_readLength bytes length mid hlength
  obtain ⟨-, hle⟩ := readLength_eq_ok hlength
  rw [bind_ok (left_apply _)] at h
  obtain ⟨items, after, hitems, h⟩ := bind_of_eq_ok h
  obtain ⟨hlen', hmore'⟩ := collect_of_append hitem hitems
  rw [bind_ok (left_apply _)] at h
  by_cases hend : after.length = mid.length - length
  · rw [if_pos hend] at h
    cases h
    refine ⟨by omega, ?_⟩
    intro more
    -- where the items have to end, counted from the back
    have hlimit : (mid ++ more).length - length = mid.length - length + more.length := by
      rw [List.length_append]
      omega
    rw [readDelimited, bind_ok (hmore more), bind_ok (left_apply _), hlimit,
      bind_ok (hmore' more), bind_ok (left_apply _), if_pos (by rw [List.length_append, hend])]
    rfl
  · rw [if_neg hend] at h
    cases h

/-! ### Skipped fields -/

/-- A group is walked over within as many steps as it has fields, so that more steps
    change nothing. -/
theorem skipGroup_append {skipField : Key → Reader Unit} (hskip : ∀ key, Steady 0 (skipField key))
    {number steps : Nat} {bytes rest : Bytes}
    (h : skipGroup skipField number steps (.of bytes) = .ok ((), .of rest)) :
    rest.length ≤ bytes.length ∧ ∀ (more : Bytes) (extra : Nat),
      skipGroup skipField number (steps + extra) (.of (bytes ++ more)) =
        .ok ((), .of (rest ++ more)) := by
  induction steps generalizing bytes with
  | zero => cases h
  | succ steps ih =>
    rw [skipGroup] at h
    obtain ⟨key, mid, hkey, h⟩ := bind_of_eq_ok h
    obtain ⟨hlen, hmore⟩ := steady_readKey bytes key mid hkey
    by_cases hend : key.form = .endGroup
    · rw [if_pos hend] at h
      by_cases hnumber : key.number = number
      · rw [if_pos hnumber] at h
        cases h
        refine ⟨by omega, ?_⟩
        intro more extra
        rw [Nat.succ_add, skipGroup, bind_ok (hmore more), if_pos hend, if_pos hnumber]
        rfl
      · rw [if_neg hnumber] at h
        cases h
    · rw [if_neg hend] at h
      obtain ⟨_, mid', hvalue, h⟩ := bind_of_eq_ok h
      obtain ⟨hlen', hmore'⟩ := hskip key mid () mid' hvalue
      obtain ⟨hlen'', hmore''⟩ := ih h
      refine ⟨by omega, ?_⟩
      intro more extra
      rw [Nat.succ_add, skipGroup, bind_ok (hmore more), if_neg hend, bind_ok (hmore' more),
        hmore'' more extra]

theorem skip_startGroup (budget number : Nat) (bytes : Bytes) :
    skip (budget + 1) ⟨number, .startGroup⟩ (.of bytes) =
      skipGroup (skip budget) number (bytes.length + 1) (.of bytes) := rfl

theorem steady_skip (budget : Nat) (key : Key) : Steady 0 (skip budget key) := by
  induction budget generalizing key with
  | zero => exact steady_fail 0 _
  | succ budget ih =>
    obtain ⟨number, form⟩ := key
    cases form with
    | varint => exact steady_readVarint.any.bind fun _ => steady_pure ()
    | fixed32 => exact (steady_take 4).bind fun _ => steady_pure ()
    | fixed64 => exact (steady_take 8).bind fun _ => steady_pure ()
    | delimited =>
      exact steady_readVarint.any.bind fun n => (steady_take n).bind fun _ => steady_pure ()
    | startGroup =>
      intro bytes a rest h
      rw [skip_startGroup] at h
      obtain ⟨hlen, hmore⟩ := skipGroup_append ih h
      refine ⟨hlen, ?_⟩
      intro more
      rw [skip_startGroup, List.length_append, Nat.add_right_comm]
      exact hmore more more.length
    | endGroup => exact steady_fail 0 _

/-! ### Fields and messages -/

namespace Schema

variable {τ : Type} (S : Schema τ)

theorem steady_expect (key : Key) (form : WireType) : Steady 0 (expect key form) :=
  (steady_pure ()).ite (steady_fail 0 _)

theorem steady_readValue {enter : τ → Reader Message} (henter : ∀ type, Steady 0 (enter type))
    (key : Key) (kind : FieldKind τ) : Steady 0 (readValue enter key kind) := by
  have hnumber : ∀ form : NumberForm, Steady 0 (do
      expect key form.wireType
      return Field.number key.number (← readNumber form)) := by
    intro form
    exact (steady_expect key _).bind fun _ => (steady_readNumber form).bind fun _ => steady_pure _
  cases kind with
  | single form => exact hnumber form
  | «repeated» form =>
    rw [readValue]
    apply Steady.ite
    · exact (steady_readDelimited (steady_readNumber form)).bind fun _ => steady_pure _
    · exact hnumber form
  | text =>
    apply (steady_expect key _).bind
    intro _
    apply steady_readVarint.any.bind
    intro n
    apply (steady_take n).bind
    intro bytes
    cases Utf8.decode bytes with
    | ok s => exact steady_pure _
    | error why => exact steady_fail 0 _
  | bytes =>
    apply (steady_expect key _).bind
    intro _
    exact steady_readVarint.any.bind fun n => (steady_take n).bind fun _ => steady_pure _
  | message type =>
    exact (steady_expect key _).bind fun _ => (henter type).bind fun _ => steady_pure _

theorem steady_readFieldWith {skipField : Key → Reader Unit} {enter : τ → Reader Message}
    (hskip : ∀ key, Steady 0 (skipField key)) (henter : ∀ type, Steady 0 (enter type)) (type : τ) :
    Steady 1 (S.readFieldWith skipField enter type) := by
  apply steady_readKey.bind
  intro key
  cases S.field? type key.number with
  | none => exact (hskip key).bind fun _ => steady_pure none
  | some d => exact ((steady_readValue henter key d.kind).map some).within _ _

/-- A field takes at least one byte, and what follows it does not matter. -/
theorem steady_readField (budget : Nat) (type : τ) : Steady 1 (S.readField budget type) := by
  induction budget generalizing type with
  | zero => exact S.steady_readFieldWith (steady_skip 0) (fun _ => steady_fail 0 _) type
  | succ budget ih =>
    apply S.steady_readFieldWith (steady_skip (budget + 1))
    intro inner
    exact (steady_readDelimited (ih inner).any).map _

/-- **Messages one after the other.**  Behind a message that can be read, the rest of
    the input is read as it is on its own, and what it holds comes after the fields of
    the message. -/
theorem decode_append {type : τ} {first : Bytes} {m : Message} (h : S.decode type first = .ok m)
    (second : Bytes) :
    S.decode type (first ++ second) = (S.decode type second).map (m ++ ·) := by
  unfold decode at h ⊢
  cases hfirst : Reader.all (S.readField nestingLimit type) (.of first) with
  | error e =>
    rw [hfirst] at h
    cases h
  | ok p =>
    rw [hfirst] at h
    cases h
    rw [Reader.all_append (S.steady_readField nestingLimit type) hfirst second]
    cases Reader.all (S.readField nestingLimit type) (.of second) with
    | error e => rfl
    | ok q =>
      simp only [Except.map, List.filterMap_append]

end Schema

end Mpsx.Wire
