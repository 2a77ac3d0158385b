import CeylonFromJava.Proofs.Json.Nesting
import Mathlib.Logic.Relation

/-! Other presentations of what a decoder reads.

A record may be an object with its members in any order, with members that belong to no field, and
without members whose value is the default; or it may be the list of its fields. `Change p` is one
such change, at a record anywhere in what `p` reads. A decoder that gives an answer gives the same
one after any number of changes, unless the value now nests too deeply. -/
namespace CeylonFromJava.Json.Decoder
set_option autoImplicit false

/-! ## Changes -/

namespace Fields

variable {ts : List Type}

/-- Reading `x` gives the value that the field `key` has when it is left out. -/
inductive Default (fields : Fields ts) (key : String) (x : Scan) : Prop where
  | mk {α : Type} {field : Field α} {a : α} {k : Nat} (found : fields.Finds key field)
      (absent : field.absent = some a) (read : ∀ depth ≥ k, field.read depth x = .ok a)

/-- The values `null`, an empty list, `false` and zero can be left out where they are the default.
-/
theorem default_of_empty {fields : Fields ts} {key : String} {α : Type} {p : Decoder α} :
    (fields.Finds key (defaulted key (option p) none) → fields.Default key .null) ∧
      (fields.Finds key (defaulted key (list p) []) → fields.Default key (.array [] .closed)) ∧
      (fields.Finds key (defaulted key bool false) → fields.Default key (.bool false)) ∧
      (fields.Finds key (defaulted key count 0) →
        fields.Default key (.number (.ok (.natural 0)))) := by
  refine ⟨fun found => .mk found rfl (fun _ _ => rfl : ∀ depth ≥ 0, _), fun found => ?_,
    fun found => .mk found rfl (fun _ _ => rfl : ∀ depth ≥ 0, _),
    fun found => .mk found rfl (fun _ _ => rfl : ∀ depth ≥ 0, _)⟩
  refine .mk found rfl (?_ : ∀ depth ≥ 1, _)
  rintro (_ | depth) hdepth
  · cases hdepth
  · rfl

/-- Two values for one record. Keys are added and removed at the front, which is any place up to
their order. -/
inductive Change (fields : Fields ts) : Scan → Scan → Prop where
  | permute {ms ms' : List (Except Fault String × Scan)} (perm : ms.Perm ms') :
      Change fields (.object ms .closed) (.object ms' .closed)
  | addUnknown {ms : List (Except Fault String × Scan)} {key : String} {x : Scan} {w : List Char}
      (unknown : key ∉ fields.names) (text : Text x w) :
      Change fields (.object ms .closed) (.object ((.ok key, x) :: ms) .closed)
  | removeUnknown {ms : List (Except Fault String × Scan)} {key : String} {x : Scan}
      (unknown : key ∉ fields.names) :
      Change fields (.object ((.ok key, x) :: ms) .closed) (.object ms .closed)
  | addDefault {ms : List (Except Fault String × Scan)} {key : String} {x : Scan}
      (default : fields.Default key x) (fresh : ∀ m ∈ ms, named key m = false) :
      Change fields (.object ms .closed) (.object ((.ok key, x) :: ms) .closed)
  | removeDefault {ms : List (Except Fault String × Scan)} {key : String} {x : Scan}
      (default : fields.Default key x) :
      Change fields (.object ((.ok key, x) :: ms) .closed) (.object ms .closed)
  | toArray {xs : List Scan} (names : fields.names.Nodup) (size : xs.length = fields.size) :
      Change fields (.object (fields.label xs) .closed) (.array xs .closed)
  | toObject {xs : List Scan} (names : fields.names.Nodup) (size : xs.length = fields.size) :
      Change fields (.array xs .closed) (.object (fields.label xs) .closed)

end Fields

/-- One record is changed somewhere in what the decoder reads. -/
inductive Change : {α : Type} → Decoder α → Scan → Scan → Prop where
  | record {α : Type} {ts : List Type} {name : String} {fields : Fields ts} {build : Values ts → α}
      {s s' : Scan} (change : fields.Change s s') : Change (record name fields build) s s'
  | member {α β : Type} {ts : List Type} {name : String} {fields : Fields ts}
      {build : Values ts → α} {field : Field β} {ms ms' : List (Except Fault String × Scan)}
      {key : String} {x x' : Scan} (found : fields.Finds key field)
      (change : Change field.read x x') :
      Change (record name fields build) (.object (ms ++ (.ok key, x) :: ms') .closed)
        (.object (ms ++ (.ok key, x') :: ms') .closed)
  | item {α β : Type} {ts : List Type} {name : String} {fields : Fields ts} {build : Values ts → α}
      {field : Field β} {xs ys : List Scan} {x x' : Scan} (found : fields.At xs.length field)
      (change : Change field.read x x') :
      Change (record name fields build) (.array (xs ++ x :: ys) .closed)
        (.array (xs ++ x' :: ys) .closed)
  | listItem {α : Type} {p : Decoder α} {xs ys : List Scan} {x x' : Scan} (change : Change p x x') :
      Change (list p) (.array (xs ++ x :: ys) .closed) (.array (xs ++ x' :: ys) .closed)
  | first {α β : Type} {p : Decoder α} {q : Decoder β} {x x' y : Scan} (change : Change p x x') :
      Change (pair p q) (.array [x, y] .closed) (.array [x', y] .closed)
  | second {α β : Type} {p : Decoder α} {q : Decoder β} {x y y' : Scan} (change : Change q y y') :
      Change (pair p q) (.array [x, y] .closed) (.array [x, y'] .closed)
  | content {α : Type} {table : List (Variant α)} {name : String} {content : Content α}
      {x x' : Scan} (named : variantNamed table name = .ok content)
      (change : Change content.read x x') :
      Change (variant table) (.object [(.ok name, x)] .closed) (.object [(.ok name, x')] .closed)
  | option {α : Type} {p : Decoder α} {s s' : Scan} (change : Change p s s') :
      Change (option p) s s'
  | map {α β : Type} {p : Decoder α} {f : α → β} {s s' : Scan} (change : Change p s s') :
      Change (p.map f) s s'

/-! ## What a change preserves -/

/-- With a limit that is large enough, what is read from `s` is read from `s'`. -/
def Preserves {α : Type} (p : Decoder α) (s s' : Scan) : Prop :=
  ∃ k, ∀ e ≥ k, ∀ a, p e s = .ok a → p e s' = .ok a

section

variable {α β : Type} {p : Decoder α} {q : Decoder β} {s s' : Scan}

/-- Lists and objects are read with a limit above zero. -/
theorem preserves_of_succ (k : Nat)
    (h : ∀ e ≥ k, ∀ a, p (e + 1) s = .ok a → p (e + 1) s' = .ok a) : Preserves p s s' := by
  refine ⟨k + 1, ?_⟩
  rintro (_ | e) he
  · cases he
  · exact h e (Nat.le_of_succ_le_succ he)

section

variable {ts : List Type} {name : String} {fields : Fields ts} {build : Values ts → α}

theorem preserves_members {ms ms' : List (Except Fault String × Scan)} (k : Nat)
    (h : ∀ e ≥ k, ∀ values, fields.Given e ms values → fields.Given e ms' values) :
    Preserves (record name fields build) (.object ms .closed) (.object ms' .closed) := by
  refine preserves_of_succ k fun e he a hok => ?_
  obtain ⟨values, hgiven, hbuild⟩ := record_object_eq_ok.mp hok
  exact record_object_eq_ok.mpr ⟨values, h e he values hgiven, hbuild⟩

theorem preserves_items {xs xs' : List Scan} (k : Nat)
    (h : ∀ e ≥ k, ∀ values, fields.Listed e xs values → fields.Listed e xs' values) :
    Preserves (record name fields build) (.array xs .closed) (.array xs' .closed) := by
  refine preserves_of_succ k fun e he a hok => ?_
  obtain ⟨values, hlisted, hbuild⟩ := record_array_eq_ok.mp hok
  exact record_array_eq_ok.mpr ⟨values, h e he values hlisted, hbuild⟩

theorem Fields.Change.preserves (h : fields.Change s s') :
    Preserves (record name fields build) s s' := by
  cases h with
  | permute perm => exact preserves_members 0 fun e _ values hgiven => hgiven.perm perm
  | addUnknown unknown text =>
    exact preserves_members 0 fun e _ values hgiven =>
      (Fields.given_unknown unknown).mpr ⟨text.skip_eq_ok, hgiven⟩
  | removeUnknown unknown =>
    exact preserves_members 0 fun e _ values hgiven => ((Fields.given_unknown unknown).mp hgiven).2
  | addDefault default fresh =>
    obtain @⟨_, _, _, k, found, absent, read⟩ := default
    exact preserves_members k fun e he values hgiven =>
      found.given_add absent (read e he) fresh hgiven
  | removeDefault default =>
    obtain @⟨_, _, _, k, found, absent, read⟩ := default
    exact preserves_members k fun e he values hgiven =>
      found.given_remove absent (read e he) hgiven
  | toArray names size =>
    refine preserves_of_succ 0 fun e _ a hok => ?_
    obtain ⟨values, hgiven, hbuild⟩ := record_object_eq_ok.mp hok
    exact record_array_eq_ok.mpr ⟨values, (Fields.given_label names size).mp hgiven, hbuild⟩
  | toObject names size =>
    refine preserves_of_succ 0 fun e _ a hok => ?_
    obtain ⟨values, hlisted, hbuild⟩ := record_array_eq_ok.mp hok
    exact record_object_eq_ok.mpr ⟨values, (Fields.given_label names size).mpr hlisted, hbuild⟩

end

/-- Only lists and objects are changed. -/
theorem Change.opens (h : Change p s s') : s.opens = true ∧ s'.opens = true := by
  induction h with
  | record change => cases change <;> exact ⟨rfl, rfl⟩
  | option change ih | map change ih => exact ih
  | _ => exact ⟨rfl, rfl⟩

theorem option_eq_map (h : s.opens = true) (depth : Nat) :
    option p depth s = (p depth s).map some := by
  unfold option
  split
  · cases h
  · cases h
  · rfl

theorem pair_array_eq_ok {depth : Nat} {x y : Scan} {c : α × β} :
    pair p q (depth + 1) (.array [x, y] .closed) = .ok c ↔
      p depth x = .ok c.1 ∧ q depth y = .ok c.2 := by
  constructor
  · intro h
    obtain ⟨_, _, _, _, hdepth, hs, hx, hy, -⟩ := pair_eq_ok h
    cases hdepth
    cases hs
    exact ⟨hx, hy⟩
  · rintro ⟨hx, hy⟩
    simp only [pair, Fields.of2, Fields.of1, required, Fields.takeItems, hx, hy]
    rfl

theorem variant_object_eq {table : List (Variant α)} {name : String} {content : Content α}
    (h : variantNamed table name = .ok content) (depth : Nat) (x : Scan) :
    variant table (depth + 1) (.object [(.ok name, x)] .closed) = content.read depth x := by
  show (variantNamed table name >>= _) = _
  rw [h]
  show (content.read depth x >>= _) = _
  cases content.read depth x <;> rfl

theorem list_array_eq_ok {depth : Nat} {xs : List Scan} {as : List α} :
    list p (depth + 1) (.array xs .closed) = .ok as ↔ items (p depth) xs = .ok as := by
  show (items (p depth) xs >>= _) = _ ↔ _
  cases items (p depth) xs with
  | error fault => exact Iff.rfl
  | ok as => exact Iff.rfl

theorem items_replace {p : Scan → Except Fault α} {xs ys : List Scan} {x x' : Scan} {as : List α}
    (hx : ∀ a, p x = .ok a → p x' = .ok a) (h : items p (xs ++ x :: ys) = .ok as) :
    items p (xs ++ x' :: ys) = .ok as := by
  induction xs generalizing as with
  | nil =>
    obtain ⟨a, ha, h⟩ := bind_eq_ok.mp h
    exact bind_eq_ok.mpr ⟨a, hx a ha, h⟩
  | cons y xs ih =>
    obtain ⟨b, hb, h⟩ := bind_eq_ok.mp h
    obtain ⟨as, has, h⟩ := bind_eq_ok.mp h
    exact bind_eq_ok.mpr ⟨b, hb, bind_eq_ok.mpr ⟨as, ih has, h⟩⟩

/-- With a limit that is large enough, a change makes no difference. -/
theorem Change.preserves (h : Change p s s') : Preserves p s s' := by
  induction h with
  | record change => exact change.preserves
  | @member _ _ _ _ _ _ _ ms ms' key x x' found change ih =>
    obtain ⟨k, hk⟩ := ih
    refine preserves_members k fun e he values hgiven => ?_
    -- the order of the members does not matter, so the changed one may stand in front
    exact (found.given_replace (hk e he) (hgiven.perm List.perm_middle)).perm List.perm_middle.symm
  | item found change ih =>
    obtain ⟨k, hk⟩ := ih
    exact preserves_items k fun e he values hlisted => found.listed_replace rfl (hk e he) hlisted
  | listItem change ih =>
    obtain ⟨k, hk⟩ := ih
    refine preserves_of_succ k fun e he a hok => ?_
    rw [list_array_eq_ok] at hok ⊢
    exact items_replace (hk e he) hok
  | first change ih =>
    obtain ⟨k, hk⟩ := ih
    refine preserves_of_succ k fun e he c hok => ?_
    rw [pair_array_eq_ok] at hok ⊢
    exact ⟨hk e he _ hok.1, hok.2⟩
  | second change ih =>
    obtain ⟨k, hk⟩ := ih
    refine preserves_of_succ k fun e he c hok => ?_
    rw [pair_array_eq_ok] at hok ⊢
    exact ⟨hok.1, hk e he _ hok.2⟩
  | content named change ih =>
    obtain ⟨k, hk⟩ := ih
    refine preserves_of_succ k fun e he a hok => ?_
    rw [variant_object_eq named] at hok ⊢
    exact hk e he a hok
  | option change ih =>
    obtain ⟨k, hk⟩ := ih
    refine ⟨k, fun e he o hok => ?_⟩
    -- neither value is `null`, which would be read without the decoder inside
    rw [option_eq_map change.opens.1, map_eq_ok] at hok
    rw [option_eq_map change.opens.2, map_eq_ok]
    obtain ⟨a, ha, ho⟩ := hok
    exact ⟨a, hk e he a ha, ho⟩
  | map change ih =>
    obtain ⟨k, hk⟩ := ih
    refine ⟨k, fun e he b hok => ?_⟩
    obtain ⟨a, ha, hb⟩ := map_eq_ok.mp hok
    exact map_eq_ok.mpr ⟨a, hk e he a ha, hb⟩

/-- So do any number of changes. -/
theorem preserves_of_changes (h : Relation.ReflTransGen (Change p) s s') : Preserves p s s' := by
  induction h with
  | refl => exact ⟨0, fun _ _ _ hok => hok⟩
  | tail _ change ih =>
    obtain ⟨k, hk⟩ := ih
    obtain ⟨k', hk'⟩ := change.preserves
    exact ⟨max k k', fun e he a hok =>
      hk' e (Nat.le_trans (Nat.le_max_right ..) he) a
        (hk e (Nat.le_trans (Nat.le_max_left ..) he) a hok)⟩

/-- After any number of changes the answer is the same if and only if the value nests no deeper
than the limit. -/
theorem eq_ok_iff_nests [Regular p] {n : Nat} {a : α} (hok : p n s = .ok a)
    (h : Relation.ReflTransGen (Change p) s s') : p n s' = .ok a ↔ Nests p n s' := by
  refine ⟨Regular.nests, fun hnests => ?_⟩
  obtain ⟨k, hk⟩ := preserves_of_changes h
  -- up to a limit that is large enough for all changes, and down again
  have hlarge := hk (max k n) (Nat.le_max_left ..) a (Regular.mono hok (Nat.le_max_right ..))
  rwa [hnests.eq (max k n) (Nat.le_max_right ..)] at hlarge

end

/-! ## Whole texts -/

section

variable {α : Type} {p : Decoder α} {text : String} {s : Scan} {a : α}

theorem opens_of_scanScalar {w rest : List Char} (h : scanScalar w = (s, some rest)) :
    s.opens = false := by
  cases w with
  | nil => cases h
  | cons c w =>
    simp only [scanScalar, scanWord, scanString, scanNumber] at h
    repeat' split at h
    all_goals cases h
    all_goals rfl

/-- The text of a list or an object has a bracket. -/
theorem exists_bracket_of_spells (h : Spells text s) (hs : s.opens = true) :
    '[' ∈ text.toList ∨ '\x7b' ∈ text.toList := by
  rw [Spells] at h
  generalize text.toList = cs at h
  obtain ⟨-, htext, -⟩ := h
  cases htext with
  | literal scan => exact absurd hs (by simp [opens_of_scanScalar scan])
  | noItems | array | noMembers | object => simp

theorem opens_of_record {ts : List Type} {name : String} {fields : Fields ts}
    {build : Values ts → α} {n : Nat} (h : record name fields build n s = .ok a) :
    s.opens = true := by
  unfold record at h
  split at h
  · rfl
  · rfl
  · rfl
  · rfl
  · exact absurd h mismatch_ne_ok

theorem decodeText_of_spells (h : Spells text s) : decodeText p text = p depthLimit s := by
  obtain ⟨b, hb, hscan⟩ := h.ofChars_eq
  rw [decodeText, hscan]
  simp only [dropBlanks_of_blanks hb]
  cases p depthLimit s <;> rfl

/-- A text that is read is the text of a tree. -/
theorem exists_spells_of_decodeText [Regular p] (h : decodeText p text = .ok a) :
    ∃ s, Spells text s ∧ p depthLimit s = .ok a := by
  unfold decodeText at h
  split at h
  · rename_i s hscan
    exact absurd (Regular.skip_eq_ok h) (skip_ne_ok_of_ofChars hscan)
  · rename_i s rest hscan
    obtain ⟨b, hb, h⟩ := bind_eq_ok.mp h
    split at h
    · rename_i hrest
      cases h
      exact ⟨s, spells_of_ofChars hscan hrest, hb⟩
    · cases h

end

end CeylonFromJava.Json.Decoder
