import CeylonFromJava.Proofs.Json.Decoding
import CeylonFromJava.Proofs.Json.Grammar

/-! What a record is read from, whatever the order of its members.

Members are taken one after another, and what was met is kept in slots. `Given` says the same
without an order: for each field there is one member with its name, or none and a value for that
case, and the members that belong to no field can be walked over. -/
namespace CeylonFromJava.Json.Decoder
set_option autoImplicit false

/-- A member called `key`. -/
def named (key : String) (m : Except Fault String × Scan) : Bool :=
  match m.1 with
  | .ok name => name == key
  | .error _ => false

/-- What the members of a field tell about its value. -/
def Field.Given {α : Type} (field : Field α) (depth : Nat) :
    List (Except Fault String × Scan) → α → Prop
  | [], a => field.absent = some a
  | [m], a => field.read depth m.2 = .ok a
  | _ :: _ :: _, _ => False

/-- What the members of a field make of its slot. -/
def Field.Fills {α : Type} (field : Field α) (depth : Nat) :
    List (Except Fault String × Scan) → Option α → Option α → Prop
  | [], slot, slot' => slot' = slot
  | [m], none, slot' => ∃ a, field.read depth m.2 = .ok a ∧ slot' = some a
  | _, _, _ => False

namespace Fields

/-- The members tell the values. -/
def Given (depth : Nat) : {ts : List Type} → Fields ts → List (Except Fault String × Scan) →
    Values ts → Prop
  | _, .nil, ms, _ => ∀ m ∈ ms, (∃ key, m.1 = .ok key) ∧ m.2.skip = .ok ()
  | _, .cons field rest, ms, (a, values) =>
    field.Given depth (ms.filter (named field.name)) a ∧
      Given depth rest (ms.filter fun m => !named field.name m) values

/-! ## Members one after another -/

/-- Takes one member. -/
def takeMember {ts : List Type} (fields : Fields ts) (depth : Nat)
    (m : Except Fault String × Scan) (slots : Slots ts) : Except Fault (Slots ts) := do
  match ← fields.accept m.1 slots with
  | some key => fields.put key depth m.2 slots
  | none =>
    m.2.skip
    return slots

section

variable {α : Type} {ts : List Type} {field : Field α} {rest : Fields ts} {depth : Nat}
  {m : Except Fault String × Scan} {ms : List (Except Fault String × Scan)}

theorem takeMembers_eq_bind (fields : Fields ts) (slots : Slots ts) :
    fields.takeMembers depth (m :: ms) slots =
      fields.takeMember depth m slots >>= fields.takeMembers depth ms := by
  rw [takeMembers, takeMember]
  cases fields.accept m.1 slots with
  | error fault => rfl
  | ok key =>
    cases key with
    | some key => rfl
    | none =>
      show (m.2.skip >>= fun _ => _) = (m.2.skip >>= fun _ => _) >>= _
      cases m.2.skip <;> rfl

/-- The first field takes what has its name. -/
theorem takeMember_named (h : named field.name m = true) (slots : Slots ts) :
    takeMember (.cons field rest) depth m (none, slots) =
      (field.read depth m.2).map fun a => (some a, slots) := by
  obtain ⟨_ | key, s⟩ := m
  · cases h
  · obtain rfl : key = field.name := by simpa [named] using h
    simp only [takeMember, accept, met?, if_true, Option.isSome_none]
    show put field.name depth s (.cons field rest) (none, slots) = _
    rw [put, if_pos rfl]
    cases field.read depth s <;> rfl

theorem takeMember_again (h : named field.name m = true) (a : α) (slots : Slots ts) :
    takeMember (.cons field rest) depth m (some a, slots) =
      .error (.duplicateField field.name) := by
  obtain ⟨_ | key, s⟩ := m
  · cases h
  · obtain rfl : key = field.name := by simpa [named] using h
    simp only [takeMember, accept, met?, if_true, Option.isSome_some]
    rfl

/-- What has another name is left to the other fields. -/
theorem takeMember_other (h : named field.name m = false) (slot : Option α) (slots : Slots ts) :
    takeMember (.cons field rest) depth m (slot, slots) =
      (takeMember rest depth m slots).map (slot, ·) := by
  obtain ⟨fault | key, s⟩ := m
  · rfl
  · have hkey : ¬ field.name = key := fun heq => by simp [named, heq] at h
    simp only [takeMember, accept, met?, if_neg hkey]
    rcases met? key rest slots with _ | _ | _
    · show (s.skip >>= fun _ => _) = (s.skip >>= fun _ => _).map _
      cases s.skip <;> rfl
    · show put key depth s (.cons field rest) (slot, slots) = (put key depth s rest slots).map _
      rw [put, if_neg hkey]
      cases put key depth s rest slots <;> rfl
    · rfl

theorem fills_some {l : List (Except Fault String × Scan)} {a : α} {slot : Option α} :
    field.Fills depth l (some a) slot ↔ l = [] ∧ slot = some a := by
  cases l <;> simp [Field.Fills]

/-- The slots of a record are filled independently of each other. -/
theorem takeMembers_cons_eq_ok {slot slot' : Option α} {slots slots' : Slots ts} :
    takeMembers (.cons field rest) depth ms (slot, slots) = .ok (slot', slots') ↔
      field.Fills depth (ms.filter (named field.name)) slot slot' ∧
        takeMembers rest depth (ms.filter fun m => !named field.name m) slots = .ok slots' := by
  induction ms generalizing slot slots with
  | nil => simp [takeMembers, Field.Fills, eq_comm]
  | cons m ms ih =>
    rw [takeMembers_eq_bind, bind_eq_ok]
    cases hm : named field.name m with
    | true =>
      simp only [List.filter_cons, hm]
      cases slot with
      | some a => simp [takeMember_again hm, Field.Fills]
      | none =>
        -- the slot is full from here on, so no other member may have the name
        simp only [takeMember_named hm, map_eq_ok]
        constructor
        · rintro ⟨_, ⟨a, hread, rfl⟩, htake⟩
          obtain ⟨hfills, hrest⟩ := ih.mp htake
          obtain ⟨hnil, rfl⟩ := fills_some.mp hfills
          refine ⟨?_, hrest⟩
          simp [hnil, Field.Fills, hread]
        · rintro ⟨hfills, hrest⟩
          cases hnil : ms.filter (named field.name) with
          | cons m' ms' => simp [hnil, Field.Fills] at hfills
          | nil =>
            simp only [hnil] at hfills
            obtain ⟨a, hread, rfl⟩ := hfills
            exact ⟨_, ⟨a, hread, rfl⟩, ih.mpr ⟨fills_some.mpr ⟨hnil, rfl⟩, hrest⟩⟩
    | false =>
      simp only [List.filter_cons, hm, takeMember_other hm, map_eq_ok, Bool.not_false, if_true,
        takeMembers_eq_bind, bind_eq_ok]
      constructor
      · rintro ⟨_, ⟨slots₁, hmember, rfl⟩, htake⟩
        obtain ⟨hfills, hrest⟩ := ih.mp htake
        exact ⟨hfills, slots₁, hmember, hrest⟩
      · rintro ⟨hfills, slots₁, hmember, hrest⟩
        exact ⟨_, ⟨slots₁, hmember, rfl⟩, ih.mpr ⟨hfills, hrest⟩⟩

theorem takeMembers_nil_eq_ok {slots : Slots []} : takeMembers .nil depth ms slots = .ok () ↔
    ∀ m ∈ ms, (∃ key, m.1 = .ok key) ∧ m.2.skip = .ok () := by
  induction ms with
  | nil => simp [takeMembers]
  | cons m ms ih =>
    rw [takeMembers_eq_bind, List.forall_mem_cons, ← ih]
    obtain ⟨fault | key, s⟩ := m
    · simp [takeMember, accept, bind, Except.bind]
    · show ((s.skip >>= fun _ => .ok ()) >>= takeMembers .nil depth ms) = _ ↔ _
      cases s.skip with
      | error fault => simp [bind, Except.bind]
      | ok _ => simp [bind, Except.bind]

/-- The value of a field, and then those of the others. -/
theorem andValues_eq_ok {β : Type} {result : Except Fault β} {a b : α} {c : β} :
    (do return (b, ← result)) = Except.ok (a, c) ↔ b = a ∧ result = .ok c := by
  cases result <;> simp [bind, Except.bind, pure, Except.pure]

theorem finish_cons_eq_ok {slot : Option α} {slots : Slots ts} {a : α} {values : Values ts} :
    finish (.cons field rest) (slot, slots) = .ok (a, values) ↔
      (slot = some a ∨ slot = none ∧ field.absent = some a) ∧ finish rest slots = .ok values := by
  cases slot with
  | some b => exact andValues_eq_ok.trans (by simp)
  | none =>
    simp only [finish]
    cases field.absent with
    | none => simp
    | some b => exact andValues_eq_ok.trans (by simp)

/-- What a field is given is what its slot holds in the end. -/
theorem field_given_iff {l : List (Except Fault String × Scan)} {a : α} :
    field.Given depth l a ↔ ∃ slot, field.Fills depth l none slot ∧
      (slot = some a ∨ slot = none ∧ field.absent = some a) := by
  match l with
  | [] => simp [Field.Given, Field.Fills]
  | [m] =>
    constructor
    · exact fun h => ⟨some a, ⟨a, h, rfl⟩, .inl rfl⟩
    · rintro ⟨_, ⟨b, hread, rfl⟩, hslot | ⟨hslot, -⟩⟩
      · cases hslot
        exact hread
      · cases hslot
  | _ :: _ :: _ => simp [Field.Given, Field.Fills]

/-- The members of an object are taken if they tell the values. -/
theorem takeMembers_eq_ok {ts : List Type} {fields : Fields ts} {values : Values ts} :
    (∃ slots, fields.takeMembers depth ms fields.noSlots = .ok slots ∧
      fields.finish slots = .ok values) ↔ fields.Given depth ms values := by
  induction fields generalizing ms with
  | nil =>
    rw [Given, ← takeMembers_nil_eq_ok]
    exact ⟨fun ⟨_, h, _⟩ => h, fun h => ⟨(), h, rfl⟩⟩
  | cons field rest ih =>
    obtain ⟨a, values⟩ := values
    rw [Given, ← ih, field_given_iff]
    constructor
    · rintro ⟨⟨slot, slots⟩, htake, hfinish⟩
      obtain ⟨hfills, hrest⟩ := takeMembers_cons_eq_ok.mp htake
      obtain ⟨hslot, hvalues⟩ := finish_cons_eq_ok.mp hfinish
      exact ⟨⟨slot, hfills, hslot⟩, slots, hrest, hvalues⟩
    · rintro ⟨⟨slot, hfills, hslot⟩, slots, hrest, hvalues⟩
      exact ⟨(slot, slots), takeMembers_cons_eq_ok.mpr ⟨hfills, hrest⟩,
        finish_cons_eq_ok.mpr ⟨hslot, hvalues⟩⟩

end

/-! ## Items one after another -/

/-- The items tell the values; fields without an item take the values they have for that case. -/
def Listed (depth : Nat) : {ts : List Type} → Fields ts → List Scan → Values ts → Prop
  | _, .nil, xs, _ => xs = []
  | _, .cons field rest, x :: xs, (a, values) =>
    field.read depth x = .ok a ∧ Listed depth rest xs values
  | _, .cons field rest, [], (a, values) => field.absent = some a ∧ Listed depth rest [] values

theorem takeItems_eq_ok {ts : List Type} {fields : Fields ts} {expected : String} {depth met : Nat}
    {xs : List Scan} {values : Values ts} :
    fields.takeItems expected depth .closed met xs = .ok values ↔
      fields.Listed depth xs values := by
  induction fields generalizing met xs with
  | nil => cases xs <;> simp [takeItems, surplus, Listed, bind, Except.bind, pure, Except.pure]
  | cons field rest ih =>
    obtain ⟨a, values⟩ := values
    cases xs with
    | nil =>
      simp only [takeItems, Listed, ← @ih (met + 1)]
      cases field.absent with
      | none => simp [listEnd, bind, Except.bind]
      | some b => exact andValues_eq_ok.trans (by simp)
    | cons x xs =>
      simp only [takeItems, Listed, ← @ih (met + 1)]
      cases field.read depth x with
      | error fault => simp [bind, Except.bind]
      | ok b => exact andValues_eq_ok.trans (by simp)

/-! ## Changes of members and items -/

/-- The field called `key` is `field`. -/
inductive Finds (key : String) : {α : Type} → {ts : List Type} → Fields ts → Field α → Prop where
  | head {α : Type} {ts : List Type} {field : Field α} {rest : Fields ts}
      (name : field.name = key) : Finds key (.cons field rest) field
  | tail {α β : Type} {ts : List Type} {other : Field β} {field : Field α} {rest : Fields ts}
      (other_name : other.name ≠ key) (found : Finds key rest field) :
      Finds key (.cons other rest) field

/-- The field with the number `i`, counted from zero, is `field`. -/
inductive At : {α : Type} → {ts : List Type} → Nat → Fields ts → Field α → Prop where
  | head {α : Type} {ts : List Type} {field : Field α} {rest : Fields ts} :
      At 0 (.cons field rest) field
  | tail {α β : Type} {ts : List Type} {other : Field β} {field : Field α} {rest : Fields ts}
      {i : Nat} (found : At i rest field) : At (i + 1) (.cons other rest) field

/-- Items with the names of the fields, in order. -/
def label : {ts : List Type} → Fields ts → List Scan → List (Except Fault String × Scan)
  | _, .cons field rest, x :: xs => (.ok field.name, x) :: label rest xs
  | _, _, _ => []

section

variable {α : Type} {ts : List Type} {fields : Fields ts} {field : Field α} {depth : Nat}
  {key : String} {s s' : Scan} {ms ms' : List (Except Fault String × Scan)} {values : Values ts}

@[simp] theorem named_ok (key name : String) (s : Scan) :
    named key (.ok name, s) = (name == key) := rfl

theorem field_given_perm {a : α} (h : ms.Perm ms') (hgiven : field.Given depth ms a) :
    field.Given depth ms' a := by
  match ms, hgiven with
  | [], hgiven => rwa [List.nil_perm.mp h]
  | [m], hgiven => rwa [← List.singleton_perm.mp h]

theorem Given.perm (h : ms.Perm ms') (hgiven : fields.Given depth ms values) :
    fields.Given depth ms' values := by
  induction fields generalizing ms ms' with
  | nil => exact fun m hm => hgiven m (h.mem_iff.mpr hm)
  | cons field rest ih =>
    exact ⟨field_given_perm (h.filter _) hgiven.1, ih (h.filter _) hgiven.2⟩

theorem field_given_cons {m : Except Fault String × Scan} {a : α} :
    field.Given depth (m :: ms) a ↔ ms = [] ∧ field.read depth m.2 = .ok a := by
  cases ms <;> simp [Field.Given]

/-- A member is one of the first field or one of the others. -/
theorem given_cons_own {rest : Fields ts} {a : α} (h : field.name = key) :
    Given depth (.cons field rest) ((.ok key, s) :: ms) (a, values) ↔
      field.Given depth ((.ok key, s) :: ms.filter (named field.name)) a ∧
        Given depth rest (ms.filter fun m => !named field.name m) values := by
  simp [Given, h]

theorem given_cons_other {rest : Fields ts} {a : α} (h : field.name ≠ key) :
    Given depth (.cons field rest) ((.ok key, s) :: ms) (a, values) ↔
      field.Given depth (ms.filter (named field.name)) a ∧
        Given depth rest ((.ok key, s) :: ms.filter fun m => !named field.name m) values := by
  simp [Given, beq_false_of_ne h.symm]

/-- A member that belongs to no field is walked over. -/
theorem given_unknown (hkey : key ∉ fields.names) :
    fields.Given depth ((.ok key, s) :: ms) values ↔
      s.skip = .ok () ∧ fields.Given depth ms values := by
  induction fields generalizing ms with
  | nil => simp [Given]
  | cons field rest ih =>
    rw [names, List.mem_cons, not_or] at hkey
    rw [given_cons_other (Ne.symm hkey.1), ih hkey.2, Given, and_left_comm]

/-- The value of a field may be replaced by one that reads the same. -/
theorem Finds.given_replace (h : fields.Finds key field)
    (hread : ∀ a, field.read depth s = .ok a → field.read depth s' = .ok a)
    (hgiven : fields.Given depth ((.ok key, s) :: ms) values) :
    fields.Given depth ((.ok key, s') :: ms) values := by
  induction h generalizing ms with
  | head name =>
    rw [given_cons_own name, field_given_cons] at hgiven ⊢
    exact ⟨⟨hgiven.1.1, hread _ hgiven.1.2⟩, hgiven.2⟩
  | tail other_name found ih =>
    rw [given_cons_other other_name] at hgiven ⊢
    exact ⟨hgiven.1, ih hread hgiven.2⟩

/-- A field may be left out if its value is the one it has then. -/
theorem Finds.given_remove {a : α} (h : fields.Finds key field) (habsent : field.absent = some a)
    (hread : field.read depth s = .ok a)
    (hgiven : fields.Given depth ((.ok key, s) :: ms) values) : fields.Given depth ms values := by
  induction h generalizing ms with
  | head name =>
    rw [given_cons_own name, field_given_cons] at hgiven
    obtain ⟨⟨hnil, hvalue⟩, hrest⟩ := hgiven
    refine ⟨?_, hrest⟩
    rw [hnil, Field.Given, habsent]
    cases hread.symm.trans hvalue
    rfl
  | tail other_name found ih =>
    rw [given_cons_other other_name] at hgiven
    exact ⟨hgiven.1, ih habsent hread hgiven.2⟩

theorem Finds.given_add {a : α} (h : fields.Finds key field) (habsent : field.absent = some a)
    (hread : field.read depth s = .ok a) (hother : ∀ m ∈ ms, named key m = false)
    (hgiven : fields.Given depth ms values) : fields.Given depth ((.ok key, s) :: ms) values := by
  induction h generalizing ms with
  | @head _ field _ name =>
    obtain rfl := name
    have hnil : ms.filter (named field.name) = [] :=
      List.filter_eq_nil_iff.mpr fun m hm => by simp [hother m hm]
    obtain ⟨hfield, hrest⟩ := hgiven
    rw [hnil, Field.Given, habsent] at hfield
    rw [given_cons_own rfl, field_given_cons]
    cases hfield
    exact ⟨⟨hnil, hread⟩, hrest⟩
  | tail other_name found ih =>
    rw [given_cons_other other_name]
    exact ⟨hgiven.1, ih habsent hread (fun m hm => hother m (List.mem_filter.mp hm).1) hgiven.2⟩

/-- An item may be replaced by one that reads the same. -/
theorem At.listed_replace {xs ys : List Scan} {i : Nat} (h : fields.At i field)
    (hi : xs.length = i) (hread : ∀ a, field.read depth s = .ok a → field.read depth s' = .ok a)
    (hlisted : fields.Listed depth (xs ++ s :: ys) values) :
    fields.Listed depth (xs ++ s' :: ys) values := by
  induction h generalizing xs with
  | head =>
    obtain rfl := List.length_eq_zero_iff.mp hi
    exact ⟨hread _ hlisted.1, hlisted.2⟩
  | tail found ih =>
    cases xs with
    | nil => simp at hi
    | cons x xs => exact ⟨hlisted.1, ih (Nat.succ.inj hi) hread hlisted.2⟩

theorem named_label {xs : List Scan} (hkey : key ∉ fields.names) :
    ∀ m ∈ fields.label xs, named key m = false := by
  induction fields generalizing xs with
  | nil => simp [label]
  | cons field rest ih =>
    rw [names, List.mem_cons, not_or] at hkey
    cases xs with
    | nil => simp [label]
    | cons x xs =>
      rw [label, List.forall_mem_cons]
      exact ⟨beq_false_of_ne (Ne.symm hkey.1), ih hkey.2⟩

/-- A list of all fields tells what the object with their names tells. -/
theorem given_label {xs : List Scan} (hnames : fields.names.Nodup)
    (hsize : xs.length = fields.size) :
    fields.Given depth (fields.label xs) values ↔ fields.Listed depth xs values := by
  induction fields generalizing xs with
  | nil =>
    obtain rfl := List.length_eq_zero_iff.mp hsize
    simp [label, Given, Listed]
  | cons field rest ih =>
    cases xs with
    | nil => simp [size] at hsize
    | cons x xs =>
      obtain ⟨hfield, hrest⟩ := List.nodup_cons.mp hnames
      obtain ⟨a, values⟩ := values
      have hother := @named_label _ rest field.name xs hfield
      have hnil : (rest.label xs).filter (named field.name) = [] :=
        List.filter_eq_nil_iff.mpr fun m hm => by simp [hother m hm]
      have hall : ((rest.label xs).filter fun m => !named field.name m) = rest.label xs :=
        List.filter_eq_self.mpr fun m hm => by simp [hother m hm]
      rw [label, given_cons_own rfl, field_given_cons, hnil, hall, ih hrest (Nat.succ.inj hsize),
        Listed]
      simp

end

end Fields

section

variable {α : Type} {ts : List Type} {name : String} {fields : Fields ts} {build : Values ts → α}
  {depth : Nat} {a : α}

theorem record_object_eq_ok {ms : List (Except Fault String × Scan)} :
    record name fields build (depth + 1) (.object ms .closed) = .ok a ↔
      ∃ values, fields.Given depth ms values ∧ build values = a := by
  simp only [record, Fields.objectEnd, bind_eq_ok, ← Fields.takeMembers_eq_ok]
  constructor
  · rintro ⟨slots, htake, -, -, values, hfinish, hbuild⟩
    exact ⟨values, ⟨slots, htake, hfinish⟩, Except.ok.inj hbuild⟩
  · rintro ⟨values, ⟨slots, htake, hfinish⟩, rfl⟩
    exact ⟨slots, htake, (), trivial, values, hfinish, rfl⟩

theorem record_array_eq_ok {xs : List Scan} :
    record name fields build (depth + 1) (.array xs .closed) = .ok a ↔
      ∃ values, fields.Listed depth xs values ∧ build values = a := by
  simp [record, bind_eq_ok, Fields.takeItems_eq_ok, pure, Except.pure]

end

end CeylonFromJava.Json.Decoder
