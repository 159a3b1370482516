/-
  Mpsx/Proofs/Wire/Undeclared.lean
  ================================
  **Fields that no schema knows.**  `RawField` is the format's own grammar of a field,
  without a schema: a key and a value in the form the key announces, where a group holds
  fields up to a key that ends it.  Numbers may be spelled with more bytes than they
  need.

  A field that is not nested too deeply is walked over exactly, whatever follows it
  (`RawField.skipped`), so a message whose type does not declare it reads as empty
  (`Schema.decode_undeclared`).  Groups inside groups are what the budget is for: one
  level more than it has is refused, well formed or not (`skip_nested`).
-/

import Mpsx.Proofs.Wire.Appended
import Mpsx.Proofs.Wire.RoundTrip

namespace Mpsx.Wire

open Reader

/-! ### The grammar -/

/-- The bytes spell the number: seven bits each, the lowest first, and all but the last
    have their top bit set. -/
inductive Spells : Nat → Bytes → Prop
  | last {b : UInt8} (hb : b.toNat < 128) : Spells b.toNat [b]
  | more {b : UInt8} {n : Nat} {bytes : Bytes} (hb : 128 ≤ b.toNat) (hbytes : Spells n bytes) :
      Spells (b.toNat - 128 + 128 * n) (b :: bytes)

structure IsVarint (n : Nat) (bytes : Bytes) : Prop where
  spells : Spells n bytes
  length_le : bytes.length ≤ 10
  lt : n < 2 ^ 64

structure IsKey (key : Key) (bytes : Bytes) : Prop where
  number : IsFieldNumber key.number
  varint : IsVarint (8 * key.number + key.form.code) bytes

theorem IsVarint.byte {b : UInt8} (hb : b.toNat < 128) : IsVarint b.toNat [b] :=
  ⟨.last hb, by simp, by omega⟩

theorem IsKey.byte {key : Key} {b : UInt8} (hkey : 8 * key.number + key.form.code = b.toNat)
    (hnumber : 0 < key.number) (hb : b.toNat < 128) : IsKey key [b] := by
  refine ⟨⟨hnumber, by omega⟩, ?_⟩
  rw [hkey]
  exact .byte hb

/-- A field with the given number, nested at most the given number of levels deep; the
    field itself is one of them. -/
inductive RawField : (levels number : Nat) → Bytes → Prop
  | varint {levels number n : Nat} {key value : Bytes} (hkey : IsKey ⟨number, .varint⟩ key)
      (hvalue : IsVarint n value) : RawField (levels + 1) number (key ++ value)
  | fixed32 {levels number : Nat} {key value : Bytes} (hkey : IsKey ⟨number, .fixed32⟩ key)
      (hvalue : value.length = 4) : RawField (levels + 1) number (key ++ value)
  | fixed64 {levels number : Nat} {key value : Bytes} (hkey : IsKey ⟨number, .fixed64⟩ key)
      (hvalue : value.length = 8) : RawField (levels + 1) number (key ++ value)
  | delimited {levels number : Nat} {key length value : Bytes}
      (hkey : IsKey ⟨number, .delimited⟩ key) (hlength : IsVarint value.length length) :
      RawField (levels + 1) number (key ++ (length ++ value))
  | group {levels number : Nat} {start stop : Bytes} {fields : List (Nat × Bytes)}
      (hstart : IsKey ⟨number, .startGroup⟩ start)
      (hfields : ∀ f ∈ fields, RawField levels f.1 f.2)
      (hstop : IsKey ⟨number, .endGroup⟩ stop) :
      RawField (levels + 1) number (start ++ (fields.flatMap Prod.snd ++ stop))

/-! ### Reading what the grammar describes -/

theorem Spells.varintFrom {n : Nat} {bytes : Bytes} (h : Spells n bytes) {more : Nat}
    (hlength : bytes.length ≤ more + 1) (hlt : n < 2 * 128 ^ more) (rest : Bytes) :
    varintFrom more (.of (bytes ++ rest)) = .ok (n, .of rest) := by
  induction h generalizing more with
  | @last b hb =>
    cases more with
    | zero =>
      rw [Wire.varintFrom, List.singleton_append, bind_ok (byte_cons _ _), if_pos (by omega)]
      rfl
    | succ more =>
      rw [Wire.varintFrom, List.singleton_append, bind_ok (byte_cons _ _), if_pos hb]
      rfl
  | @more b n bytes hb hbytes ih =>
    cases more with
    | zero =>
      -- the last byte that is allowed announces another one
      obtain rfl := List.eq_nil_of_length_eq_zero (Nat.le_zero.mp (Nat.le_of_succ_le_succ hlength))
      cases hbytes
    | succ more =>
      have hn : n < 2 * 128 ^ more := by
        rw [Nat.pow_succ] at hlt
        omega
      rw [Wire.varintFrom, List.cons_append, bind_ok (byte_cons _ _), if_neg (by omega),
        bind_ok (ih (Nat.le_of_succ_le_succ hlength) hn)]
      rfl

theorem IsVarint.read {n : Nat} {bytes : Bytes} (h : IsVarint n bytes) (rest : Bytes) :
    readVarint (.of (bytes ++ rest)) = .ok (n, .of rest) :=
  h.spells.varintFrom h.length_le (by have := h.lt; omega) rest

theorem IsKey.read {key : Key} {bytes : Bytes} (h : IsKey key bytes) (rest : Bytes) :
    readKey (.of (bytes ++ rest)) = .ok (key, .of rest) := by
  obtain ⟨hpos, hlt⟩ := h.number
  have hcode := key.form.code_lt
  have hform : (8 * key.number + key.form.code) % 8 = key.form.code := by omega
  have hnumber : (8 * key.number + key.form.code) / 8 = key.number := by omega
  rw [readKey, bind_ok (h.varint.read rest), if_neg (by omega), hform, hnumber,
    WireType.ofCode?_code]
  simp only [if_neg (show key.number ≠ 0 by omega)]
  rfl

theorem IsKey.length_pos {key : Key} {bytes : Bytes} (h : IsKey key bytes) : 0 < bytes.length := by
  obtain ⟨hlen, -⟩ := steady_readKey _ _ _ (h.read [])
  rw [List.append_nil] at hlen
  exact hlen

def Skipped (budget number : Nat) (bytes : Bytes) : Prop :=
  ∀ rest, ∃ form mid, form ≠ .endGroup ∧
    readKey (.of (bytes ++ rest)) = .ok (⟨number, form⟩, .of mid) ∧
    skip budget ⟨number, form⟩ (.of mid) = .ok ((), .of rest)

theorem Skipped.length_pos {budget number : Nat} {bytes : Bytes}
    (h : Skipped budget number bytes) : 0 < bytes.length := by
  obtain ⟨form, mid, -, hkey, -⟩ := h []
  obtain ⟨hlen, -⟩ := steady_readKey _ _ _ hkey
  rw [List.append_nil] at hlen
  omega

theorem IsKey.skipped {budget number : Nat} {form : WireType} {key value : Bytes}
    (hkey : IsKey ⟨number, form⟩ key) (hform : form ≠ .endGroup)
    (hvalue : ∀ rest, skip budget ⟨number, form⟩ (.of (value ++ rest)) = .ok ((), .of rest)) :
    Skipped budget number (key ++ value) := by
  intro rest
  refine ⟨form, value ++ rest, hform, ?_, hvalue rest⟩
  rw [List.append_assoc]
  exact hkey.read _

/-- Fields that can be skipped one by one are skipped one after the other, up to the key
    that ends the group. -/
theorem skipGroup_fields {budget number : Nat} {fields : List (Nat × Bytes)} {stop : Bytes}
    (hfields : ∀ f ∈ fields, Skipped budget f.1 f.2) (hstop : IsKey ⟨number, .endGroup⟩ stop)
    {steps : Nat} (hsteps : (fields.flatMap Prod.snd).length < steps) (rest : Bytes) :
    skipGroup (skip budget) number steps (.of (fields.flatMap Prod.snd ++ (stop ++ rest))) =
      .ok ((), .of rest) := by
  induction fields generalizing steps with
  | nil =>
    cases steps with
    | zero => omega
    | succ steps =>
      rw [skipGroup, List.flatMap_nil, List.nil_append, bind_ok (hstop.read rest), if_pos rfl,
        if_pos rfl]
      rfl
  | cons f fields ih =>
    have hpos := (hfields f (by simp)).length_pos
    rw [List.flatMap_cons, List.length_append] at hsteps
    cases steps with
    | zero => omega
    | succ steps =>
      obtain ⟨form, mid, hform, hkey, hskip⟩ :=
        hfields f (by simp) (fields.flatMap Prod.snd ++ (stop ++ rest))
      rw [skipGroup, List.flatMap_cons, List.append_assoc, bind_ok hkey, if_neg hform,
        bind_ok hskip, ih (fun g hg => hfields g (by simp [hg])) (by omega)]

/-- **A field is walked over exactly**, if it is not nested deeper than the budget. -/
theorem RawField.skipped {levels number : Nat} {bytes : Bytes} (h : RawField levels number bytes) :
    Skipped levels number bytes := by
  induction h with
  | varint hkey hvalue =>
    apply hkey.skipped (by decide)
    intro rest
    simp only [skip]
    rw [bind_ok (hvalue.read rest)]
    rfl
  | @fixed32 levels number key value hkey hvalue =>
    apply hkey.skipped (by decide)
    intro rest
    simp only [skip]
    rw [← hvalue, bind_ok (take_append value rest)]
    rfl
  | @fixed64 levels number key value hkey hvalue =>
    apply hkey.skipped (by decide)
    intro rest
    simp only [skip]
    rw [← hvalue, bind_ok (take_append value rest)]
    rfl
  | @delimited levels number key length value hkey hlength =>
    apply hkey.skipped (by decide)
    intro rest
    simp only [skip]
    rw [List.append_assoc, bind_ok (hlength.read _), bind_ok (take_append value rest)]
    rfl
  | group hstart hfields hstop ih =>
    apply hstart.skipped (by decide)
    intro rest
    rw [skip_startGroup, List.append_assoc]
    -- a step for each byte that is left, and so for each field of the group
    exact skipGroup_fields ih hstop (by simp only [List.length_append]; omega) rest

/-! ### Fields beside those of a message -/

namespace Schema

variable {τ : Type} (S : Schema τ)

theorem readField_undeclared {budget number : Nat} {type : τ} {bytes : Bytes}
    (hnumber : S.field? type number = none) (h : RawField budget number bytes) (rest : Bytes) :
    S.readField budget type (.of (bytes ++ rest)) = .ok (none, .of rest) := by
  obtain ⟨form, mid, -, hkey, hskip⟩ := h.skipped rest
  rw [readField_eq, readFieldWith, bind_ok hkey]
  simp only [hnumber]
  rw [bind_ok hskip]
  rfl

theorem decode_undeclared {number : Nat} {type : τ} {bytes : Bytes}
    (hnumber : S.field? type number = none) (h : RawField nestingLimit number bytes) :
    S.decode type bytes = .ok [] := by
  have hitem : ∀ field ∈ [bytes], ∀ rest,
      S.readField nestingLimit type (.of (id field ++ rest)) = .ok (none, .of rest) := by
    intro field hfield rest
    obtain rfl := List.mem_singleton.mp hfield
    exact S.readField_undeclared hnumber h rest
  have hpos : ∀ field ∈ [bytes], 0 < (id field).length := by
    intro field hfield
    obtain rfl := List.mem_singleton.mp hfield
    exact h.skipped.length_pos
  have hall : Reader.all (S.readField nestingLimit type) (.of bytes) = .ok ([none], .of []) := by
    have hcollect := collect_encoded hitem hpos [] (Nat.le_refl _) []
    rw [List.flatMap_singleton, List.append_nil] at hcollect
    exact hcollect
  rw [decode, hall]
  rfl

end Schema

/-! ### One level too many -/

theorem Reader.all_eq_error {α : Type} {item : Reader α} {bytes : Bytes} {e : Fault}
    (h : item (.of bytes) = .error e) (hpos : 0 < bytes.length) :
    all item (.of bytes) = .error e := by
  obtain ⟨steps, hsteps⟩ := Nat.exists_eq_succ_of_ne_zero (Nat.ne_of_gt hpos)
  rw [all, bind_ok (left_apply _), hsteps, collect, bind_ok (left_apply _),
    if_neg (by omega), bind_apply, h]
  rfl

def nestedGroups (start stop : Bytes) : (levels : Nat) → Bytes
  | 0 => []
  | levels + 1 => start ++ (nestedGroups start stop levels ++ stop)

section NestedGroups

variable {number : Nat} {start stop : Bytes}

theorem RawField.nestedGroups (hstart : IsKey ⟨number, .startGroup⟩ start)
    (hstop : IsKey ⟨number, .endGroup⟩ stop) (levels : Nat) :
    RawField (levels + 1) number (nestedGroups start stop (levels + 1)) := by
  induction levels with
  | zero =>
    have hfields : ∀ f ∈ ([] : List (Nat × Bytes)), RawField 0 f.1 f.2 := by simp
    exact .group hstart hfields hstop
  | succ levels ih =>
    have hfields : ∀ f ∈ [(number, Wire.nestedGroups start stop (levels + 1))],
        RawField (levels + 1) f.1 f.2 := by
      intro f hf
      obtain rfl := List.mem_singleton.mp hf
      exact ih
    have hgroup := RawField.group hstart hfields hstop
    rw [List.flatMap_singleton] at hgroup
    exact hgroup

theorem nestedGroups_eq_append (start stop : Bytes) (levels : Nat) :
    ∃ rest, nestedGroups start stop levels = (List.replicate levels start).flatten ++ rest := by
  induction levels with
  | zero => exact ⟨[], rfl⟩
  | succ levels ih =>
    obtain ⟨rest, hrest⟩ := ih
    refine ⟨rest ++ stop, ?_⟩
    rw [nestedGroups, hrest, List.replicate_succ, List.flatten_cons, List.append_assoc,
      List.append_assoc]

/-- Groups that open inside each other, one more than the budget has levels: the last of
    them is refused, whatever it holds. -/
theorem skip_nested (hstart : IsKey ⟨number, .startGroup⟩ start) (budget : Nat) (rest : Bytes) :
    skip budget ⟨number, .startGroup⟩ (.of ((List.replicate budget start).flatten ++ rest)) =
      .error ⟨[], .nesting⟩ := by
  induction budget with
  | zero => rfl
  | succ budget ih =>
    rw [skip_startGroup, skipGroup, List.replicate_succ, List.flatten_cons, List.append_assoc,
      bind_ok (hstart.read _), if_neg (by simp), bind_apply, ih]
    rfl

/-- Well formed or not, a group that is nested deeper than the limit makes everything that
    contains it unreadable. -/
theorem Schema.decode_nestedGroups {τ : Type} (S : Schema τ) {type : τ}
    (hnumber : S.field? type number = none) (hstart : IsKey ⟨number, .startGroup⟩ start)
    (stop rest : Bytes) :
    S.decode type (Wire.nestedGroups start stop (nestingLimit + 1) ++ rest) =
      .error ⟨[], .nesting⟩ := by
  obtain ⟨inner, hinner⟩ := nestedGroups_eq_append start stop nestingLimit
  have hread : S.readField nestingLimit type
      (.of (Wire.nestedGroups start stop (nestingLimit + 1) ++ rest)) = .error ⟨[], .nesting⟩ := by
    rw [readField_eq, readFieldWith, Wire.nestedGroups, hinner, List.append_assoc,
      bind_ok (hstart.read _)]
    simp only [hnumber, List.append_assoc]
    rw [bind_apply, skip_nested hstart]
    rfl
  have hpos := hstart.length_pos
  rw [decode, all_eq_error hread (by simp only [Wire.nestedGroups, List.length_append]; omega)]

end NestedGroups

end Mpsx.Wire
