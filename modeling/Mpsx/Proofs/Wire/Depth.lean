/-
  Mpsx/Proofs/Wire/Depth.lean
  ===========================
  **How deep messages are nested.**  The depth of a message is the number of
  messages one has to enter to reach its innermost field.  Every view that hands
  out a nested message hands out a shallower one, also where the message is put
  together from several pieces.

  `Schema.decode_depth` is the bound that reading enforces: whatever the bytes
  are, an accepted message is at most `nestingLimit` deep.
-/

import Mpsx.Proofs.Wire.Encoded
import Mpsx.Wire.Schema

namespace Mpsx.Wire

mutual

/-- How many messages enclose the innermost part of a field. -/
def Field.depth : Field → Nat
  | .message _ fields => fieldsDepth fields + 1
  | .number _ _ => 0
  | .packed _ _ => 0
  | .text _ _ => 0
  | .bytes _ _ => 0

def fieldsDepth : List Field → Nat
  | [] => 0
  | f :: rest => max f.depth (fieldsDepth rest)

end

def Message.depth (m : Message) : Nat := fieldsDepth m

namespace Message

theorem depth_le_iff {m : Message} {d : Nat} : m.depth ≤ d ↔ ∀ f ∈ m, f.depth ≤ d := by
  unfold depth
  induction m with
  | nil => simp [fieldsDepth]
  | cons f rest ih => rw [fieldsDepth, Nat.max_le, ih, List.forall_mem_cons]

theorem depth_le_of_mem {m : Message} {f : Field} (h : f ∈ m) : f.depth ≤ m.depth :=
  depth_le_iff.mp (Nat.le_refl _) f h

@[simp] theorem depth_message (n : Nat) (fields : Message) :
    (Field.message n fields).depth = fields.depth + 1 := by
  rw [Field.depth, depth]

@[simp] theorem depth_number (n : Nat) (x : Number) : (Field.number n x).depth = 0 := rfl

@[simp] theorem depth_packed (n : Nat) (xs : List Number) : (Field.packed n xs).depth = 0 := rfl

@[simp] theorem depth_text (n : Nat) (s : String) : (Field.text n s).depth = 0 := rfl

@[simp] theorem depth_bytes (n : Nat) (b : Bytes) : (Field.bytes n b).depth = 0 := rfl

@[simp] theorem depth_nil : depth [] = 0 := rfl

@[simp] theorem depth_cons (f : Field) (m : Message) : depth (f :: m) = max f.depth m.depth := rfl

@[simp] theorem depth_append (m k : Message) : depth (m ++ k) = max m.depth k.depth := by
  induction m with
  | nil => simp
  | cons f rest ih => rw [List.cons_append, depth_cons, depth_cons, ih, Nat.max_assoc]

/-- Fields that hold no messages are not nested at all. -/
theorem depth_map_eq_zero {α : Type} {F : α → Field} (hF : ∀ x, (F x).depth = 0) (xs : List α) :
    depth (xs.map F) = 0 := by
  induction xs with
  | nil => rfl
  | cons x rest ih => rw [List.map_cons, depth_cons, hF, ih, Nat.max_self]

theorem depth_messages_le_iff {α : Type} {n d : Nat} {write : α → Message} {xs : List α} :
    depth (xs.map fun x => Field.message n (write x)) ≤ d ↔ ∀ x ∈ xs, (write x).depth < d := by
  simp only [depth_le_iff, List.forall_mem_map, depth_message, Nat.succ_le_iff]

/-- Messages that hold no messages are one level deep, if there are any. -/
theorem depth_flat_messages_le_iff {α : Type} {n d : Nat} {write : α → Message}
    (hwrite : ∀ x, (write x).depth = 0) {xs : List α} :
    depth (xs.map fun x => Field.message n (write x)) ≤ d ↔ (xs ≠ [] → 0 < d) := by
  simp only [depth_messages_le_iff, hwrite]
  constructor
  · intro h hne
    obtain ⟨x, hx⟩ := List.exists_mem_of_ne_nil xs hne
    exact h x hx
  · intro h x hx
    exact h (List.ne_nil_of_mem hx)

/-! ### Nested messages are shallower -/

theorem mem_messages_iff {m k : Message} {n : Nat} :
    k ∈ m.messages n ↔ Field.message n k ∈ m := by
  unfold messages
  rw [List.mem_filterMap]
  constructor
  · rintro ⟨f, hf, hk⟩
    cases f with
    | message j fields =>
      rw [Field.message?] at hk
      split at hk
      · next hj =>
        subst hj
        cases hk
        exact hf
      · cases hk
    | number j x => cases hk
    | packed j xs => cases hk
    | text j s => cases hk
    | bytes j b => cases hk
  · intro h
    exact ⟨_, h, by simp [Field.message?]⟩

theorem depth_lt_of_mem_messages {m k : Message} {n : Nat} (h : k ∈ m.messages n) :
    k.depth < m.depth := by
  have hf := depth_le_of_mem (mem_messages_iff.mp h)
  rw [depth_message] at hf
  exact hf

theorem depth_lt_of_message? {m k : Message} {n : Nat} (h : m.message? n = some k) :
    k.depth < m.depth := by
  unfold message? at h
  split at h
  · cases h
  · next hne =>
    obtain rfl := Option.some.inj h
    -- each piece is shallower, and there is a piece, so the depth is not zero
    obtain ⟨piece, hpiece⟩ : ∃ piece, piece ∈ m.messages n := by
      cases hm : m.messages n with
      | nil => simp [hm] at hne
      | cons piece rest => exact ⟨piece, by simp⟩
    have hpos := depth_lt_of_mem_messages hpiece
    have hall : Message.depth (m.messages n).flatten ≤ m.depth - 1 := by
      rw [depth_le_iff]
      intro f hf
      obtain ⟨k, hk, hfk⟩ := List.mem_flatten.mp hf
      have := depth_lt_of_mem_messages hk
      have := depth_le_of_mem hfk
      omega
    omega

private def choose (ns : List Nat) (state : Option (Nat × Message)) (f : Field) :
    Option (Nat × Message) :=
  match f with
  | .message k fields =>
    if k ∈ ns then
      match state with
      | some (j, earlier) => if j = k then some (k, earlier ++ fields) else some (k, fields)
      | none => some (k, fields)
    else state
  | _ => state

private theorem chosen?_eq_foldl (m : Message) (ns : List Nat) :
    m.chosen? ns = m.foldl (choose ns) none := rfl

private theorem choose_depth {ns : List Nat} {state : Option (Nat × Message)} {f : Field} {d : Nat}
    (hf : f.depth ≤ d) (hstate : ∀ p ∈ state, p.2.depth < d) :
    ∀ p ∈ choose ns state f, p.2.depth < d := by
  intro p hp
  cases f with
  | message k fields =>
    rw [depth_message] at hf
    simp only [choose] at hp
    split at hp
    · cases state with
      | none =>
        cases hp
        exact hf
      | some earlier =>
        have hearlier : earlier.2.depth < d := hstate earlier rfl
        simp only at hp
        split at hp
        · cases hp
          -- the pieces so far and the new one
          have hboth : Message.depth (earlier.2 ++ fields) ≤ d - 1 := by
            rw [depth_le_iff]
            intro g hg
            rcases List.mem_append.mp hg with hg | hg
            · have := depth_le_of_mem hg
              omega
            · have := depth_le_of_mem hg
              omega
          show Message.depth (earlier.2 ++ fields) < d
          omega
        · cases hp
          exact hf
    · exact hstate p hp
  | number k x => exact hstate p hp
  | packed k xs => exact hstate p hp
  | text k s => exact hstate p hp
  | bytes k b => exact hstate p hp

theorem depth_lt_of_chosen? {m k : Message} {ns : List Nat} {n : Nat}
    (h : m.chosen? ns = some (n, k)) : k.depth < m.depth := by
  have hfold : ∀ (fields : Message) (state : Option (Nat × Message)),
      (∀ f ∈ fields, f.depth ≤ m.depth) → (∀ p ∈ state, p.2.depth < m.depth) →
      ∀ p ∈ fields.foldl (choose ns) state, p.2.depth < m.depth := by
    intro fields
    induction fields with
    | nil => exact fun state _ hstate => hstate
    | cons f rest ih =>
      intro state hfields hstate
      exact ih _ (fun g hg => hfields g (by simp [hg]))
        (choose_depth (hfields f (by simp)) hstate)
  rw [chosen?_eq_foldl] at h
  exact hfold m none (fun f hf => depth_le_of_mem hf) (by simp) (n, k) h

end Message

/-! ### Readers in sequence, from their end -/

namespace Reader

variable {α β : Type}

theorem bind_eq_ok {r : Reader α} {f : α → Reader β} {b : β} {c c' : Cursor}
    (h : (r >>= f) c = .ok (b, c')) : ∃ a c'', r c = .ok (a, c'') ∧ f a c'' = .ok (b, c') := by
  rw [bind_apply] at h
  cases hr : r c with
  | error e => rw [hr] at h; cases h
  | ok p =>
    rw [hr] at h
    exact ⟨p.1, p.2, rfl, h⟩

theorem map_eq_ok {r : Reader α} {f : α → β} {b : β} {c c' : Cursor}
    (h : (f <$> r) c = .ok (b, c')) : ∃ a, r c = .ok (a, c') ∧ b = f a := by
  rw [map_eq_pure_bind] at h
  obtain ⟨a, c'', hr, hb⟩ := bind_eq_ok h
  cases hb
  exact ⟨a, hr, rfl⟩

theorem within_eq_ok {message field : String} {r : Reader α} {c : Cursor} {x : α × Cursor}
    (h : within message field r c = .ok x) : r c = .ok x := by
  unfold within at h
  split at h
  · next hr => cases h; exact hr
  · cases h

/-- What holds of every item that can be read holds of everything collected. -/
theorem collect_forall {item : Reader α} {P : α → Prop}
    (hitem : ∀ c a c', item c = .ok (a, c') → P a) {limit steps : Nat} {found xs : List α}
    {c c' : Cursor} (hfound : ∀ a ∈ found, P a)
    (h : collect item limit steps found c = .ok (xs, c')) : ∀ a ∈ xs, P a := by
  induction steps generalizing found c with
  | zero =>
    cases h
    simpa using hfound
  | succ steps ih =>
    rw [collect] at h
    obtain ⟨unread, c1, hleft, h⟩ := bind_eq_ok h
    split at h
    · cases h
      simpa using hfound
    · obtain ⟨a, c2, ha, h⟩ := bind_eq_ok h
      refine ih ?_ h
      intro b hb
      rcases List.mem_cons.mp hb with rfl | hb
      · exact hitem _ _ _ ha
      · exact hfound b hb

end Reader

theorem readDelimited_forall {α : Type} {item : Reader α} {P : α → Prop}
    (hitem : ∀ c a c', item c = .ok (a, c') → P a) {xs : List α} {c c' : Cursor}
    (h : readDelimited item c = .ok (xs, c')) : ∀ a ∈ xs, P a := by
  obtain ⟨length, c1, _, h⟩ := Reader.bind_eq_ok h
  obtain ⟨unread, c2, _, h⟩ := Reader.bind_eq_ok h
  obtain ⟨items, c3, hitems, h⟩ := Reader.bind_eq_ok h
  obtain ⟨unread', c4, _, h⟩ := Reader.bind_eq_ok h
  split at h
  · cases h
    exact Reader.collect_forall hitem (by simp) hitems
  · cases h

/-! ### The bound that reading enforces -/

namespace Schema

variable {τ : Type} (S : Schema τ)

theorem readValue_depth {enter : τ → Reader Message} {budget : Nat}
    (henter : ∀ type c k c', enter type c = .ok (k, c') → k.depth < budget) {key : Key}
    {kind : FieldKind τ} {f : Field} {c c' : Cursor}
    (h : readValue enter key kind c = .ok (f, c')) : f.depth ≤ budget := by
  cases kind with
  | single form =>
    obtain ⟨_, c1, _, h⟩ := Reader.bind_eq_ok h
    obtain ⟨x, c2, _, h⟩ := Reader.bind_eq_ok h
    cases h
    exact Nat.zero_le _
  | «repeated» form =>
    rw [readValue] at h
    split at h
    · obtain ⟨xs, c1, _, h⟩ := Reader.bind_eq_ok h
      cases h
      exact Nat.zero_le _
    · obtain ⟨_, c1, _, h⟩ := Reader.bind_eq_ok h
      obtain ⟨x, c2, _, h⟩ := Reader.bind_eq_ok h
      cases h
      exact Nat.zero_le _
  | text =>
    obtain ⟨_, c1, _, h⟩ := Reader.bind_eq_ok h
    obtain ⟨n, c2, _, h⟩ := Reader.bind_eq_ok h
    obtain ⟨bytes, c3, _, h⟩ := Reader.bind_eq_ok h
    cases hu : Utf8.decode bytes with
    | ok s =>
      rw [hu] at h
      cases h
      exact Nat.zero_le _
    | error why =>
      rw [hu] at h
      cases h
  | bytes =>
    obtain ⟨_, c1, _, h⟩ := Reader.bind_eq_ok h
    obtain ⟨n, c2, _, h⟩ := Reader.bind_eq_ok h
    obtain ⟨bytes, c3, _, h⟩ := Reader.bind_eq_ok h
    cases h
    exact Nat.zero_le _
  | message type =>
    obtain ⟨_, c1, _, h⟩ := Reader.bind_eq_ok h
    obtain ⟨k, c2, hk, h⟩ := Reader.bind_eq_ok h
    cases h
    rw [Message.depth_message]
    exact henter type c1 k c' hk

theorem readFieldWith_depth {skipField : Key → Reader Unit} {enter : τ → Reader Message}
    {budget : Nat} (henter : ∀ type c k c', enter type c = .ok (k, c') → k.depth < budget)
    {type : τ} {f : Field} {c c' : Cursor}
    (h : S.readFieldWith skipField enter type c = .ok (some f, c')) : f.depth ≤ budget := by
  obtain ⟨key, c1, _, h⟩ := Reader.bind_eq_ok h
  cases hd : S.field? type key.number with
  | none =>
    rw [hd] at h
    obtain ⟨_, c2, _, h⟩ := Reader.bind_eq_ok h
    cases h
  | some d =>
    rw [hd] at h
    obtain ⟨g, hg, hf⟩ := Reader.map_eq_ok (Reader.within_eq_ok h)
    obtain rfl := Option.some.inj hf
    exact readValue_depth henter hg

/-- A field that is read is no deeper than the budget it is read with. -/
theorem readField_depth {budget : Nat} {type : τ} {f : Field} {c c' : Cursor}
    (h : S.readField budget type c = .ok (some f, c')) : f.depth ≤ budget := by
  induction budget generalizing type f c c' with
  | zero =>
    refine S.readFieldWith_depth ?_ h
    intro inner c1 k c2 hk
    cases hk
  | succ budget ih =>
    refine S.readFieldWith_depth ?_ h
    intro inner c1 k c2 hk
    obtain ⟨fields, hfields, rfl⟩ := Reader.map_eq_ok hk
    have hall : ∀ o ∈ fields, ∀ g ∈ o, g.depth ≤ budget := by
      refine readDelimited_forall ?_ hfields
      rintro c3 o c4 ho g rfl
      exact ih ho
    have hdepth : Message.depth (fields.filterMap id) ≤ budget := by
      rw [Message.depth_le_iff]
      intro g hg
      obtain ⟨o, ho, hog⟩ := List.mem_filterMap.mp hg
      exact hall o ho g hog
    omega

/-- An accepted message is no deeper than the limit. -/
theorem decode_depth {type : τ} {bytes : Bytes} {m : Message}
    (h : S.decode type bytes = .ok m) : m.depth ≤ nestingLimit := by
  unfold decode at h
  split at h
  · next fields c hfields =>
    obtain rfl := Except.ok.inj h
    have hall : ∀ o ∈ fields, ∀ g ∈ o, g.depth ≤ nestingLimit := by
      obtain ⟨unread, c1, _, hfields⟩ := Reader.bind_eq_ok hfields
      refine Reader.collect_forall ?_ (by simp) hfields
      rintro c2 o c3 ho g rfl
      exact S.readField_depth ho
    rw [Message.depth_le_iff]
    intro g hg
    obtain ⟨o, ho, hog⟩ := List.mem_filterMap.mp hg
    exact hall o ho g hog
  · cases h

end Schema

end Mpsx.Wire
