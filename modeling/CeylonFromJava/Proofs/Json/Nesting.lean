import CeylonFromJava.Proofs.Json.Records

/-! How deep a value nests for the decoder that reads it.

`Nests p n s` says that `p` opens at most `n` lists and objects at once to read `s`. The members
that it walks over do not count. The answer is then the same for every limit from `n` on, and a
decoder that gives an answer has opened no more than it may. -/
namespace CeylonFromJava.Json
set_option autoImplicit false

/-- A list or an object. -/
def Scan.opens : Scan → Bool
  | .array _ _ | .object _ _ => true
  | _ => false

namespace Decoder

/-! ## Nesting -/

inductive Nests : {α : Type} → Decoder α → Nat → Scan → Prop where
  | leaf {α : Type} {p : Decoder α} {n : Nat} {s : Scan} (opens : s.opens = false)
      (same : ∀ depth, p depth s = p n s) : Nests p n s
  | map {α β : Type} {p : Decoder α} {f : α → β} {n : Nat} {s : Scan} (nests : Nests p n s) :
      Nests (p.map f) n s
  | option {α : Type} {p : Decoder α} {n : Nat} {s : Scan} (nests : Nests p n s) :
      Nests (option p) n s
  | list {α : Type} {p : Decoder α} {n : Nat} {xs : List Scan} {stop : ArrayStop}
      (items : ∀ x ∈ xs, Nests p n x) : Nests (list p) (n + 1) (.array xs stop)
  | pair {α β : Type} {p : Decoder α} {q : Decoder β} {n : Nat} {x y : Scan} {stop : ArrayStop}
      (first : Nests p n x) (second : Nests q n y) : Nests (pair p q) (n + 1) (.array [x, y] stop)
  | array {α : Type} {ts : List Type} {name : String} {fields : Fields ts} {build : Values ts → α}
      {n : Nat} {xs : List Scan} {stop : ArrayStop}
      (items : ∀ {β : Type} {field : Field β} {i : Nat} {x : Scan}, fields.At i field →
        xs[i]? = some x → Nests field.read n x) :
      Nests (record name fields build) (n + 1) (.array xs stop)
  | object {α : Type} {ts : List Type} {name : String} {fields : Fields ts} {build : Values ts → α}
      {n : Nat} {ms : List (Except Fault String × Scan)} {stop : ObjectStop}
      (members : ∀ {β : Type} {field : Field β} {key : String} {x : Scan}, fields.Finds key field →
        (.ok key, x) ∈ ms → Nests field.read n x) :
      Nests (record name fields build) (n + 1) (.object ms stop)
  | variant {α : Type} {table : List (Variant α)} {name : String} {content : Content α} {n : Nat}
      {s : Scan} {ms : List (Except Fault String × Scan)} {stop : ObjectStop}
      (named : variantNamed table name = .ok content) (nests : Nests content.read n s) :
      Nests (variant table) (n + 1) (.object ((.ok name, s) :: ms) stop)

/-! ## Limits that make no difference -/

theorem items_congr {α : Type} {p q : Scan → Except Fault α} {xs : List Scan}
    (h : ∀ x ∈ xs, p x = q x) : items p xs = items q xs := by
  induction xs with
  | nil => rfl
  | cons x xs ih =>
    obtain ⟨hx, hxs⟩ := List.forall_mem_cons.mp h
    rw [items, items, hx, ih hxs]

namespace Fields

variable {ts : List Type} {d e : Nat}

theorem eq_ok_of_named {key : String} {m : Except Fault String × Scan}
    (h : named key m = true) : m.1 = .ok key := by
  obtain ⟨_ | name, s⟩ := m
  · cases h
  · exact congrArg Except.ok (by simpa using h)

theorem ne_of_not_named {key key' : String} {m : Except Fault String × Scan}
    (h : named key m = false) (hm : m.1 = .ok key') : key ≠ key' := by
  rintro rfl
  simp [named, hm] at h

theorem takeMember_congr {fields : Fields ts} {m : Except Fault String × Scan} (slots : Slots ts)
    (h : ∀ {β : Type} {field : Field β} {key : String}, fields.Finds key field → m.1 = .ok key →
      field.read d m.2 = field.read e m.2) :
    fields.takeMember d m slots = fields.takeMember e m slots := by
  induction fields with
  | nil => rfl
  | cons field rest ih =>
    obtain ⟨slot, slots⟩ := slots
    cases hm : named field.name m with
    | true =>
      cases slot with
      | none =>
        rw [takeMember_named hm, takeMember_named hm, h (.head rfl) (eq_ok_of_named hm)]
      | some a => rw [takeMember_again hm, takeMember_again hm]
    | false =>
      rw [takeMember_other hm, takeMember_other hm]
      rw [ih slots fun found hkey => h (.tail (ne_of_not_named hm hkey) found) hkey]

theorem takeMembers_congr {fields : Fields ts} {ms : List (Except Fault String × Scan)}
    (slots : Slots ts)
    (h : ∀ {β : Type} {field : Field β} {key : String} {x : Scan}, fields.Finds key field →
      (.ok key, x) ∈ ms → field.read d x = field.read e x) :
    fields.takeMembers d ms slots = fields.takeMembers e ms slots := by
  induction ms generalizing slots with
  | nil => rfl
  | cons m ms ih =>
    have hmember : fields.takeMember d m slots = fields.takeMember e m slots :=
      takeMember_congr slots fun found hkey => h found (by rw [← hkey]; exact List.mem_cons_self ..)
    have hmembers : fields.takeMembers d ms = fields.takeMembers e ms :=
      funext fun slots => ih slots fun found hx => h found (List.mem_cons_of_mem _ hx)
    rw [takeMembers_eq_bind, takeMembers_eq_bind, hmember, hmembers]

theorem takeItems_congr {expected : String} {stop : ArrayStop} {fields : Fields ts} {met : Nat}
    {xs : List Scan}
    (h : ∀ {β : Type} {field : Field β} {i : Nat} {x : Scan}, fields.At i field →
      xs[i]? = some x → field.read d x = field.read e x) :
    fields.takeItems expected d stop met xs = fields.takeItems expected e stop met xs := by
  induction fields generalizing met xs with
  | nil => rfl
  | cons field rest ih =>
    cases xs with
    | nil => rw [takeItems, takeItems, ih fun _ hx => absurd hx (by simp)]
    | cons x xs =>
      rw [takeItems, takeItems, h .head rfl, ih fun found hx => h (.tail found) hx]

end Fields

/-- From what the value needs on, the limit makes no difference. -/
theorem Nests.eq {α : Type} {p : Decoder α} {n : Nat} {s : Scan} (h : Nests p n s) :
    ∀ e, n ≤ e → p e s = p n s := by
  induction h with
  | leaf opens same => exact fun e _ => same e
  | map nests ih => exact fun e he => by rw [Decoder.map, Decoder.map, ih e he]
  | @option α p n s nests ih =>
    intro e he
    cases s <;> simp only [Decoder.option, ih e he]
  | @list α p n xs stop items ih =>
    rintro (_ | e) he
    · cases he
    · rw [Decoder.list, Decoder.list, items_congr fun x hx => ih x hx e (Nat.le_of_succ_le_succ he)]
  | @pair α β p q n x y stop first second ih ih' =>
    rintro (_ | e) he
    · cases he
    · have hx := ih e (Nat.le_of_succ_le_succ he)
      have hy := ih' e (Nat.le_of_succ_le_succ he)
      simp only [Decoder.pair, Fields.of2, Fields.of1, required, Fields.takeItems, hx, hy]
  | array items ih =>
    rintro (_ | e) he
    · cases he
    · rw [record, record, Fields.takeItems_congr fun found hx =>
        ih found hx e (Nat.le_of_succ_le_succ he)]
  | object members ih =>
    rintro (_ | e) he
    · cases he
    · rw [record, record, Fields.takeMembers_congr _ fun found hx =>
        ih found hx e (Nat.le_of_succ_le_succ he)]
  | @variant α table name content n s ms stop named nests ih =>
    rintro (_ | e) he
    · cases he
    · have hread := ih e (Nat.le_of_succ_le_succ he)
      show (variantNamed table name >>= _) = (variantNamed table name >>= _)
      rw [named]
      show (content.read e s >>= _) = (content.read n s >>= _)
      rw [hread]

/-! ## Decoders that open no more than they may -/

/-- A decoder that gives an answer has opened no more than it may, and has met nothing that could
not be walked over. -/
class Regular {α : Type} (p : Decoder α) : Prop where
  nests : ∀ {n : Nat} {s : Scan} {a : α}, p n s = .ok a → Nests p n s
  skip_eq_ok : ∀ {n : Nat} {s : Scan} {a : α}, p n s = .ok a → s.skip = .ok ()

/-- All fields are read by such decoders. -/
class RegularFields {ts : List Type} (fields : Fields ts) : Prop where
  read : ∀ {β : Type} {field : Field β} {i : Nat}, fields.At i field → Regular field.read

/-- All variants are read by such decoders. -/
class RegularTable {α : Type} (table : List (Variant α)) : Prop where
  read : ∀ v ∈ table, Regular v.content.read

/-- A larger limit gives the same answer. -/
theorem Regular.mono {α : Type} {p : Decoder α} [Regular p] {n e : Nat} {s : Scan} {a : α}
    (h : p n s = .ok a) (he : n ≤ e) : p e s = .ok a :=
  ((Regular.nests h).eq e he).trans h

section

variable {α β : Type} {p : Decoder α} {q : Decoder β}

theorem mismatch_ne_ok {expected : String} {s : Scan} {a : α} : mismatch expected s ≠ .ok a := by
  unfold mismatch
  split <;> exact fun h => nomatch h

theorem regular_of_leaf (h : ∀ {n : Nat} {s : Scan} {a : α}, p n s = .ok a →
    s.opens = false ∧ s.skip = .ok () ∧ ∀ depth, p depth s = p n s) : Regular p where
  nests hok := .leaf (h hok).1 (h hok).2.2
  skip_eq_ok hok := (h hok).2.1

instance : Regular unit := regular_of_leaf fun {n s a} h => by
  unfold unit at h
  split at h
  · exact ⟨rfl, rfl, fun _ => rfl⟩
  · exact absurd h mismatch_ne_ok

instance : Regular bool := regular_of_leaf fun {n s a} h => by
  unfold bool at h
  split at h
  · exact ⟨rfl, rfl, fun _ => rfl⟩
  · exact absurd h mismatch_ne_ok

instance : Regular string := regular_of_leaf fun {n s a} h => by
  unfold string at h
  split at h
  · exact ⟨rfl, rfl, fun _ => rfl⟩
  · exact absurd h mismatch_ne_ok

instance : Regular count := regular_of_leaf fun {n s a} h => by
  unfold count at h
  split at h
  · exact ⟨rfl, rfl, fun _ => rfl⟩
  · cases h
  · exact absurd h mismatch_ne_ok

instance [Regular p] (f : α → β) : Regular (p.map f) where
  nests h := by
    obtain ⟨a, ha, -⟩ := map_eq_ok.mp h
    exact .map (Regular.nests ha)
  skip_eq_ok h := by
    obtain ⟨a, ha, -⟩ := map_eq_ok.mp h
    exact Regular.skip_eq_ok ha

/-- A value is `null` or is read by the decoder inside. -/
theorem option_eq_ok {n : Nat} {s : Scan} {o : Option α} (h : option p n s = .ok o) :
    s = .null ∨ ∃ a, p n s = .ok a := by
  unfold option at h
  split at h
  · exact .inl rfl
  · cases h
  · obtain ⟨a, ha, -⟩ := map_eq_ok.mp h
    exact .inr ⟨a, ha⟩

instance [Regular p] : Regular (option p) where
  nests h := by
    rcases option_eq_ok h with rfl | ⟨a, ha⟩
    · exact .leaf rfl fun _ => rfl
    · exact .option (Regular.nests ha)
  skip_eq_ok h := by
    rcases option_eq_ok h with rfl | ⟨a, ha⟩
    · rfl
    · exact Regular.skip_eq_ok ha

theorem exists_of_items_eq_ok {p : Scan → Except Fault α} {xs : List Scan} {as : List α}
    (h : items p xs = .ok as) : ∀ x ∈ xs, ∃ a, p x = .ok a := by
  induction xs generalizing as with
  | nil => exact fun x hx => absurd hx List.not_mem_nil
  | cons x xs ih =>
    rw [items, bind_eq_ok] at h
    obtain ⟨a, ha, h⟩ := h
    rw [bind_eq_ok] at h
    obtain ⟨as, has, -⟩ := h
    exact List.forall_mem_cons.mpr ⟨⟨a, ha⟩, ih has⟩

/-- What a decoder of lists reads is a list whose items can be read. -/
theorem list_eq_ok {n : Nat} {s : Scan} {as : List α} (h : list p n s = .ok as) :
    ∃ m xs stop, n = m + 1 ∧ s = .array xs stop ∧ (∀ x ∈ xs, ∃ a, p m x = .ok a) ∧
      listEnd stop = .ok () := by
  unfold list at h
  split at h
  · cases h
  · rename_i m xs stop
    obtain ⟨as, has, h⟩ := bind_eq_ok.mp h
    obtain ⟨_, hstop, -⟩ := bind_eq_ok.mp h
    exact ⟨m, xs, stop, rfl, rfl, exists_of_items_eq_ok has, hstop⟩
  · exact absurd h mismatch_ne_ok

theorem skip_stop_of_listEnd {stop : ArrayStop} (h : listEnd stop = .ok ()) :
    stop.skip = .ok () := by
  unfold listEnd at h
  split at h
  · rfl
  · rfl
  all_goals cases h

instance [Regular p] : Regular (list p) where
  nests h := by
    obtain ⟨m, xs, stop, rfl, rfl, hitems, -⟩ := list_eq_ok h
    refine .list fun x hx => ?_
    obtain ⟨a, ha⟩ := hitems x hx
    exact Regular.nests ha
  skip_eq_ok h := by
    obtain ⟨m, xs, stop, rfl, rfl, hitems, hstop⟩ := list_eq_ok h
    refine skip_array_eq_ok.mpr ⟨fun x hx => ?_, skip_stop_of_listEnd hstop⟩
    obtain ⟨a, ha⟩ := hitems x hx
    exact Regular.skip_eq_ok ha

end

/-! ### Records -/

namespace Fields

variable {α : Type} {ts : List Type} {fields : Fields ts} {field : Field α} {rest : Fields ts}
  {d : Nat}

theorem Finds.exists_at {key : String} (h : fields.Finds key field) : ∃ i, fields.At i field := by
  induction h with
  | head name => exact ⟨0, .head⟩
  | tail other_name found ih =>
    obtain ⟨i, hi⟩ := ih
    exact ⟨i + 1, .tail hi⟩

theorem Finds.mem_names {key : String} (h : fields.Finds key field) : key ∈ fields.names := by
  induction h with
  | head name => exact name ▸ List.mem_cons_self ..
  | tail other_name found ih => exact List.mem_cons_of_mem _ ih

/-- A field is found in one place only. -/
theorem Finds.nests {β : Type} {key : String} {field' : Field β} {n : Nat} {x : Scan}
    (h : fields.Finds key field) (h' : fields.Finds key field') (hnests : Nests field'.read n x) :
    Nests field.read n x := by
  induction h with
  | head name =>
    cases h' with
    | head _ => exact hnests
    | tail other_name _ => exact absurd name other_name
  | tail other_name found ih =>
    cases h' with
    | head name => exact absurd name other_name
    | tail _ found' => exact ih found'

instance regularFields_nil : RegularFields .nil where
  read found := nomatch found

instance regularFields_cons [Regular field.read] [RegularFields rest] :
    RegularFields (.cons field rest) where
  read found := by
    cases found with
    | head => infer_instance
    | tail found => exact RegularFields.read found

theorem regular_head (h : RegularFields (.cons field rest)) : Regular field.read :=
  h.read .head

theorem regularFields_tail (h : RegularFields (.cons field rest)) : RegularFields rest where
  read found := h.read (.tail found)

theorem takeMember_read {key : String} {x : Scan} {slots slots' : Slots ts}
    (h : fields.Finds key field) (htake : fields.takeMember d (.ok key, x) slots = .ok slots') :
    ∃ b, field.read d x = .ok b := by
  induction h with
  | head name =>
    obtain ⟨_ | a, slots⟩ := slots
    · rw [takeMember_named (by simp [name])] at htake
      obtain ⟨b, hb, -⟩ := map_eq_ok.mp htake
      exact ⟨b, hb⟩
    · rw [takeMember_again (by simp [name])] at htake
      cases htake
  | tail other_name found ih =>
    obtain ⟨slot, slots⟩ := slots
    rw [takeMember_other (by simpa using Ne.symm other_name)] at htake
    obtain ⟨slots₁, htake, -⟩ := map_eq_ok.mp htake
    exact ih htake

theorem takeMembers_read {ms : List (Except Fault String × Scan)} {key : String} {x : Scan}
    {slots slots' : Slots ts} (h : fields.Finds key field) (hx : (.ok key, x) ∈ ms)
    (htake : fields.takeMembers d ms slots = .ok slots') : ∃ b, field.read d x = .ok b := by
  induction ms generalizing slots with
  | nil => exact absurd hx List.not_mem_nil
  | cons m ms ih =>
    rw [takeMembers_eq_bind, bind_eq_ok] at htake
    obtain ⟨slots₁, hmember, hmembers⟩ := htake
    rcases List.mem_cons.mp hx with rfl | hx
    · exact takeMember_read h hmember
    · exact ih hx hmembers

theorem takeMember_skip (hfields : RegularFields fields) {m : Except Fault String × Scan}
    {slots slots' : Slots ts} (htake : fields.takeMember d m slots = .ok slots') :
    m.2.skip = .ok () := by
  induction fields with
  | nil =>
    have hnil : takeMembers .nil d [m] slots = .ok () := by
      rw [takeMembers_eq_bind, htake]
      rfl
    exact (takeMembers_nil_eq_ok.mp hnil m (List.mem_singleton_self m)).2
  | cons field rest ih =>
    obtain ⟨slot, slots⟩ := slots
    cases hm : named field.name m with
    | true =>
      cases slot with
      | none =>
        rw [takeMember_named hm] at htake
        obtain ⟨b, hb, -⟩ := map_eq_ok.mp htake
        exact (regular_head hfields).skip_eq_ok hb
      | some a =>
        rw [takeMember_again hm] at htake
        cases htake
    | false =>
      rw [takeMember_other hm] at htake
      obtain ⟨slots₁, htake, -⟩ := map_eq_ok.mp htake
      exact ih (regularFields_tail hfields) htake

theorem takeMembers_skip (hfields : RegularFields fields)
    {ms : List (Except Fault String × Scan)} {slots slots' : Slots ts}
    (htake : fields.takeMembers d ms slots = .ok slots') : ∀ m ∈ ms, m.2.skip = .ok () := by
  induction ms generalizing slots with
  | nil => exact fun m hm => absurd hm List.not_mem_nil
  | cons m ms ih =>
    rw [takeMembers_eq_bind, bind_eq_ok] at htake
    obtain ⟨slots₁, hmember, hmembers⟩ := htake
    exact List.forall_mem_cons.mpr ⟨takeMember_skip hfields hmember, ih hmembers⟩

theorem takeItems_read {expected : String} {stop : ArrayStop} {met i : Nat} {xs : List Scan}
    {x : Scan} {values : Values ts} (h : fields.At i field) (hx : xs[i]? = some x)
    (htake : fields.takeItems expected d stop met xs = .ok values) :
    ∃ b, field.read d x = .ok b := by
  induction h generalizing met xs with
  | head =>
    cases xs with
    | nil => simp at hx
    | cons y xs =>
      cases hx
      obtain ⟨b, hb, -⟩ := bind_eq_ok.mp htake
      exact ⟨b, hb⟩
  | tail found ih =>
    cases xs with
    | nil => simp at hx
    | cons y xs =>
      obtain ⟨b, -, htake⟩ := bind_eq_ok.mp htake
      obtain ⟨values, htake, -⟩ := bind_eq_ok.mp htake
      exact ih hx htake

theorem skip_of_surplus {xs : List Scan} {stop : ArrayStop} (h : surplus xs stop = .ok ()) :
    (Scan.array xs stop).skip = .ok () := by
  unfold surplus at h
  split at h
  · cases h
  · rfl
  · rfl
  all_goals cases h

theorem takeItems_skip (hfields : RegularFields fields) {expected : String} {stop : ArrayStop}
    {met : Nat} {xs : List Scan} {values : Values ts}
    (htake : fields.takeItems expected d stop met xs = .ok values) :
    (Scan.array xs stop).skip = .ok () := by
  induction fields generalizing met xs with
  | nil =>
    obtain ⟨_, hsurplus, -⟩ := bind_eq_ok.mp htake
    exact skip_of_surplus hsurplus
  | cons field rest ih =>
    cases xs with
    | nil =>
      obtain ⟨_, hstop, -⟩ := bind_eq_ok.mp htake
      exact skip_array_eq_ok.mpr ⟨by simp, skip_stop_of_listEnd hstop⟩
    | cons x xs =>
      obtain ⟨b, hb, htake⟩ := bind_eq_ok.mp htake
      obtain ⟨values, htake, -⟩ := bind_eq_ok.mp htake
      obtain ⟨hxs, hstop⟩ := skip_array_eq_ok.mp (ih (regularFields_tail hfields) htake)
      exact skip_array_eq_ok.mpr
        ⟨List.forall_mem_cons.mpr ⟨(regular_head hfields).skip_eq_ok hb, hxs⟩, hstop⟩

theorem skip_stop_of_objectEnd {first : Bool} {slots : Slots ts} {stop : ObjectStop}
    (h : fields.objectEnd first slots stop = .ok ()) : stop.skip = .ok () := by
  unfold objectEnd at h
  split at h
  · rfl
  · rfl
  · cases h
  · cases h
  · cases h
  · cases h
  · obtain ⟨_, -, h⟩ := bind_eq_ok.mp h
    cases h
  · cases h
  · cases h

end Fields

section

variable {α : Type} {ts : List Type} {fields : Fields ts}

instance [hfields : RegularFields fields] {name : String} {build : Values ts → α} :
    Regular (record name fields build) where
  nests {n s a} h := by
    unfold record at h
    split at h
    · cases h
    · cases h
    · obtain ⟨values, htake, -⟩ := bind_eq_ok.mp h
      refine .array fun found hx => ?_
      obtain ⟨b, hb⟩ := Fields.takeItems_read found hx htake
      exact (hfields.read found).nests hb
    · obtain ⟨slots, htake, -⟩ := bind_eq_ok.mp h
      refine .object fun found hx => ?_
      obtain ⟨b, hb⟩ := Fields.takeMembers_read found hx htake
      obtain ⟨i, hi⟩ := found.exists_at
      exact (hfields.read hi).nests hb
    · exact absurd h mismatch_ne_ok
  skip_eq_ok {n s a} h := by
    unfold record at h
    split at h
    · cases h
    · cases h
    · obtain ⟨values, htake, -⟩ := bind_eq_ok.mp h
      exact Fields.takeItems_skip hfields htake
    · obtain ⟨slots, htake, h⟩ := bind_eq_ok.mp h
      obtain ⟨_, hstop, -⟩ := bind_eq_ok.mp h
      exact skip_object_eq_ok.mpr
        ⟨Fields.takeMembers_skip hfields htake, Fields.skip_stop_of_objectEnd hstop⟩
    · exact absurd h mismatch_ne_ok

theorem pair_eq_ok {β : Type} {p : Decoder α} {q : Decoder β} {n : Nat} {s : Scan} {c : α × β}
    (h : pair p q n s = .ok c) : ∃ m x y stop, n = m + 1 ∧ s = .array [x, y] stop ∧
      p m x = .ok c.1 ∧ q m y = .ok c.2 ∧ stop.skip = .ok () := by
  unfold pair at h
  split at h
  · cases h
  · rename_i m xs stop
    obtain ⟨⟨a, b, _⟩, htake, h⟩ := bind_eq_ok.mp h
    cases h
    match xs with
    | [] =>
      obtain ⟨_, -, hnone⟩ := bind_eq_ok.mp htake
      cases hnone
    | [x] =>
      obtain ⟨_, -, htake⟩ := bind_eq_ok.mp htake
      obtain ⟨_, htake, -⟩ := bind_eq_ok.mp htake
      obtain ⟨_, -, hnone⟩ := bind_eq_ok.mp htake
      cases hnone
    | x :: y :: zs =>
      obtain ⟨_, hx, htake⟩ := bind_eq_ok.mp htake
      obtain ⟨_, htake, hvalues⟩ := bind_eq_ok.mp htake
      cases hvalues
      obtain ⟨_, hy, htake⟩ := bind_eq_ok.mp htake
      obtain ⟨_, htake, hvalues⟩ := bind_eq_ok.mp htake
      cases hvalues
      obtain ⟨_, hsurplus, -⟩ := bind_eq_ok.mp htake
      cases zs with
      | nil => exact ⟨m, x, y, stop, rfl, rfl, hx, hy,
          (skip_array_eq_ok.mp (Fields.skip_of_surplus hsurplus)).2⟩
      | cons z zs => cases hsurplus
  · exact absurd h mismatch_ne_ok

instance {β : Type} {p : Decoder α} {q : Decoder β} [Regular p] [Regular q] :
    Regular (pair p q) where
  nests h := by
    obtain ⟨m, x, y, stop, rfl, rfl, hx, hy, -⟩ := pair_eq_ok h
    exact .pair (Regular.nests hx) (Regular.nests hy)
  skip_eq_ok h := by
    obtain ⟨m, x, y, stop, rfl, rfl, hx, hy, hstop⟩ := pair_eq_ok h
    refine skip_array_eq_ok.mpr ⟨?_, hstop⟩
    simp [Regular.skip_eq_ok hx, Regular.skip_eq_ok hy]

end

section

variable {α β γ δ ε ζ : Type}

instance {name : String} {p : Decoder α} [Regular p] : Regular (required name p).read := ‹Regular p›

instance {name : String} {p : Decoder α} {absent : α} [Regular p] :
    Regular (defaulted name p absent).read := ‹Regular p›

variable {a : Field α} {b : Field β} {c : Field γ} {d : Field δ} {e : Field ε} {f : Field ζ}
  [Regular a.read] [Regular b.read] [Regular c.read] [Regular d.read] [Regular e.read]
  [Regular f.read]

instance : RegularFields (.of1 a) := inferInstanceAs (RegularFields (.cons a .nil))

instance : RegularFields (.of2 a b) := inferInstanceAs (RegularFields (.cons a (.of1 b)))

instance : RegularFields (.of3 a b c) := inferInstanceAs (RegularFields (.cons a (.of2 b c)))

instance : RegularFields (.of4 a b c d) := inferInstanceAs (RegularFields (.cons a (.of3 b c d)))

instance : RegularFields (.of5 a b c d e) :=
  inferInstanceAs (RegularFields (.cons a (.of4 b c d e)))

instance : RegularFields (.of6 a b c d e f) :=
  inferInstanceAs (RegularFields (.cons a (.of5 b c d e f)))

end

/-! ### Variants -/

section

variable {α : Type} {table : List (Variant α)}

theorem exists_of_variantNamed {name : String} {content : Content α}
    (h : variantNamed table name = .ok content) : ∃ v ∈ table, v.content = content := by
  unfold variantNamed at h
  split at h
  · rename_i v hv
    cases h
    exact ⟨v, List.mem_of_find?_eq_some hv, rfl⟩
  · cases h

theorem skip_stop_of_variantEnd {ms : List (Except Fault String × Scan)} {stop : ObjectStop}
    (h : variantEnd ms stop = .ok ()) : ms = [] ∧ stop.skip = .ok () := by
  unfold variantEnd at h
  split at h
  · exact ⟨rfl, rfl⟩
  · exact ⟨rfl, rfl⟩
  all_goals cases h

/-- A variant is read from a name or from an object with one member. -/
theorem variant_eq_ok {n : Nat} {s : Scan} {a : α} (h : variant table n s = .ok a) :
    (∃ text, s = .string text) ∨ ∃ m name content x stop, n = m + 1 ∧
      s = .object [(.ok name, x)] stop ∧ variantNamed table name = .ok content ∧
      content.read m x = .ok a ∧ stop.skip = .ok () := by
  unfold variant at h
  split at h
  · exact .inl ⟨_, rfl⟩
  · cases h
  · cases h
  · cases h
  · rename_i m key x ms stop
    obtain ⟨name, hkey, h⟩ := bind_eq_ok.mp h
    obtain ⟨content, hcontent, h⟩ := bind_eq_ok.mp h
    obtain ⟨a, hread, h⟩ := bind_eq_ok.mp h
    obtain ⟨_, hend, h⟩ := bind_eq_ok.mp h
    obtain ⟨hms, hstop⟩ := skip_stop_of_variantEnd hend
    cases h
    subst hkey hms
    exact .inr ⟨m, name, content, x, stop, rfl, rfl, hcontent, hread, hstop⟩
  · cases h
  · cases h

instance [htable : RegularTable table] : Regular (variant table) where
  nests h := by
    rcases variant_eq_ok h with ⟨text, rfl⟩ | ⟨m, name, content, x, stop, rfl, rfl, hname, hread, -⟩
    · exact .leaf rfl fun _ => rfl
    · obtain ⟨v, hv, rfl⟩ := exists_of_variantNamed hname
      exact .variant hname ((htable.read v hv).nests hread)
  skip_eq_ok h := by
    rcases variant_eq_ok h with
      ⟨text, rfl⟩ | ⟨m, name, content, x, stop, rfl, rfl, hname, hread, hstop⟩
    · rfl
    · obtain ⟨v, hv, rfl⟩ := exists_of_variantNamed hname
      exact skip_object_eq_ok.mpr
        ⟨List.forall_mem_singleton.mpr ((htable.read v hv).skip_eq_ok hread), hstop⟩

instance : RegularTable ([] : List (Variant α)) where
  read _ hv := absurd hv List.not_mem_nil

instance {name : String} {content : Content α} [hread : Regular content.read]
    [htable : RegularTable table] : RegularTable (⟨name, content⟩ :: table) where
  read := List.forall_mem_cons.mpr ⟨hread, htable.read⟩

instance {p : Decoder α} [Regular p] : Regular (Content.value p).read := ‹Regular p›

instance {p : Decoder α} [Regular p] : Regular (Content.fields p).read := ‹Regular p›

instance {a : α} : Regular (Content.unit a).read :=
  inferInstanceAs (Regular (Decoder.unit.map fun _ => a))

instance {table : List (String × α)} : Regular (names table) := by
  have : RegularTable (table.map fun (name, a) => (⟨name, .unit a⟩ : Variant α)) := by
    refine ⟨fun v hv => ?_⟩
    obtain ⟨⟨name, a⟩, -, rfl⟩ := List.mem_map.mp hv
    infer_instance
  exact inferInstanceAs (Regular (variant _))

end

end Decoder

end CeylonFromJava.Json
