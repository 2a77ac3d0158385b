import CeylonFromJava.Json.Decoder
import CeylonFromJava.Proofs.Json.ScanText

/-! Decoders that read what was written.

`Reads k p j a` says that `p` reads `a` from the value `j`, as long as fewer than `k` lists and objects
may be opened: if that is enough for `j`, `a` is the answer, otherwise the limit is the fault and
nothing else is. There is one lemma for each way to build a decoder. -/
namespace CeylonFromJava.Json
set_option autoImplicit false

/-! ## Depth -/

mutual
/-- How many lists and objects are open at once, at most. -/
def depth : Json → Nat
  | .null | .bool _ | .number _ | .string _ => 0
  | .array items => depthAll items + 1
  | .object members => depthMembers members + 1

def depthAll : List Json → Nat
  | [] => 0
  | j :: js => max (depth j) (depthAll js)

def depthMembers : List (String × Json) → Nat
  | [] => 0
  | (_, j) :: members => max (depth j) (depthMembers members)
end

namespace Decoder

/-! ## Plain values -/

/-- The answer of a decoder that may open `depth` lists and objects to a value with `needed`. -/
def answer {α : Type} (needed depth : Nat) (a : α) : Except Fault α :=
  if needed ≤ depth then .ok a else .error .recursionLimit

structure Reads {α : Type} (k : Nat) (p : Decoder α) (j : Json) (a : α) : Prop where
  fits : Fits j
  eq_answer : ∀ depth < k, p depth j.toScan = answer j.depth depth a

section

variable {α β : Type} {k : Nat} {p : Decoder α} {q : Decoder β} {j : Json} {a : α} {b : β}

theorem answer_zero (depth : Nat) (a : α) : answer 0 depth a = .ok a := by
  rw [answer, if_pos (Nat.zero_le depth)]

theorem answer_succ (needed depth : Nat) (a : α) :
    answer (needed + 1) (depth + 1) a = answer needed depth a := by
  simp [answer]

/-- Two answers one after the other. -/
theorem answer_bind (needed needed' depth : Nat) (a : α) (f : α → Except Fault β) (b : β)
    (h : f a = answer needed' depth b) :
    (answer needed depth a >>= f) = answer (max needed needed') depth b := by
  by_cases hn : needed ≤ depth
  · rw [answer, if_pos hn]
    simp only [bind, Except.bind, h, answer, Nat.max_le, hn, true_and]
  · have hmax : ¬ max needed needed' ≤ depth := fun hle => hn (Nat.le_trans (Nat.le_max_left ..) hle)
    rw [answer, answer, if_neg hn, if_neg hmax]
    rfl

theorem answer_bind_ok (needed depth : Nat) (a : α) (f : α → Except Fault β) (b : β)
    (h : f a = .ok b) : (answer needed depth a >>= f) = answer needed depth b := by
  have hbind := answer_bind needed 0 depth a f b (h.trans (answer_zero depth b).symm)
  rwa [Nat.max_zero] at hbind

theorem answer_map (needed depth : Nat) (a : α) (f : α → β) :
    (answer needed depth a).map f = answer needed depth (f a) := by
  rw [answer, answer]
  split <;> rfl

theorem Reads.mono {k' : Nat} (h : Reads k p j a) (hk : k' ≤ k) : Reads k' p j a :=
  ⟨h.fits, fun depth hdepth => h.eq_answer depth (Nat.lt_of_lt_of_le hdepth hk)⟩

theorem Reads.map (h : Reads k p j a) (f : α → β) : Reads k (p.map f) j (f a) := by
  refine ⟨h.fits, fun depth hdepth => ?_⟩
  rw [Decoder.map, h.eq_answer depth hdepth, answer_map]

theorem reads_string (s : String) : Reads k string (.string s) s :=
  ⟨trivial, fun depth _ => (answer_zero depth s).symm⟩

theorem reads_bool (b : Bool) : Reads k bool (.bool b) b :=
  ⟨trivial, fun depth _ => (answer_zero depth b).symm⟩

theorem reads_count (n : UInt64) : Reads k count (.number n.toNat) n := by
  refine ⟨n.toNat_lt, fun depth _ => ?_⟩
  rw [Json.depth, answer_zero, toScan, count, UInt64.ofNat_toNat]

theorem reads_none : Reads k (option p) .null none :=
  ⟨trivial, fun depth _ => (answer_zero depth none).symm⟩

theorem Reads.some (h : Reads k p j a) (hj : j ≠ .null) : Reads k (option p) j (some a) := by
  refine ⟨h.fits, fun depth hdepth => ?_⟩
  have hoption : option p depth j.toScan = (p depth j.toScan).map Option.some := by
    cases j <;> first | exact absurd rfl hj | rfl
  rw [hoption, h.eq_answer depth hdepth, answer_map]

/-- A value is read, and is not `null`, or there is none. -/
inductive ReadsOption (k : Nat) (p : Decoder α) : Option Json → Option α → Prop where
  | none : ReadsOption k p none none
  | some {j : Json} {a : α} (read : Reads k p j a) (ne_null : j ≠ .null) :
      ReadsOption k p (some j) (some a)

/-! ## Lists -/

/-- The values are read one by one. -/
inductive ReadsAll (k : Nat) (p : Decoder α) : List Json → List α → Prop where
  | nil : ReadsAll k p [] []
  | cons {j : Json} {a : α} {js : List Json} {as : List α} (head : Reads k p j a)
      (tail : ReadsAll k p js as) : ReadsAll k p (j :: js) (a :: as)

theorem readsAll_map {f : α → Json} (as : List α) (h : ∀ a ∈ as, Reads k p (f a) a) :
    ReadsAll k p (as.map f) as := by
  induction as with
  | nil => exact .nil
  | cons a as ih =>
    exact .cons (h a (List.mem_cons_self ..)) (ih fun b hb => h b (List.mem_cons_of_mem _ hb))

theorem ReadsAll.fits {js : List Json} {as : List α} (h : ReadsAll k p js as) : FitsAll js := by
  induction h with
  | nil => trivial
  | cons head _ ih => exact ⟨head.fits, ih⟩

theorem ReadsAll.items_eq {js : List Json} {as : List α} (h : ReadsAll k p js as) {depth : Nat}
    (hdepth : depth < k) : items (p depth) (itemScans js) = answer (depthAll js) depth as := by
  induction h with
  | nil => exact (answer_zero depth []).symm
  | cons head _ ih =>
    rw [itemScans, items, head.eq_answer depth hdepth, depthAll]
    refine answer_bind _ _ _ _ _ _ ?_
    rw [ih]
    exact answer_bind_ok _ _ _ _ _ rfl

theorem ReadsAll.list {js : List Json} {as : List α} (h : ReadsAll k p js as) :
    Reads k (Decoder.list p) (.array js) as := by
  refine ⟨h.fits, fun depth hdepth => ?_⟩
  cases depth with
  | zero => simp [toScan, Decoder.list, answer, Json.depth]
  | succ depth =>
    have hitems := h.items_eq (Nat.lt_of_succ_lt hdepth)
    rw [toScan, Decoder.list, hitems, Json.depth, answer_succ]
    exact answer_bind_ok _ _ _ _ _ rfl

theorem Reads.pair {j' : Json} (hp : Reads k p j a) (hq : Reads k q j' b) :
    Reads k (Decoder.pair p q) (.array [j, j']) (a, b) := by
  refine ⟨⟨hp.fits, hq.fits, trivial⟩, fun depth hdepth => ?_⟩
  cases depth with
  | zero => simp [toScan, Decoder.pair, answer, Json.depth]
  | succ depth =>
    have hdepth' := Nat.lt_of_succ_lt hdepth
    have hitems : Fields.takeItems "a tuple of size 2" depth .closed
        (.of2 (required "0" p) (required "1" q)) 0 [j.toScan, j'.toScan] =
          answer (max j.depth j'.depth) depth (a, b, ()) := by
      simp only [Fields.of2, Fields.of1, required, Fields.takeItems, hp.eq_answer depth hdepth',
        hq.eq_answer depth hdepth', bind_assoc]
      exact answer_bind _ _ _ _ _ _ (answer_bind_ok _ _ _ _ _ rfl)
    rw [toScan, itemScans, itemScans, itemScans, Decoder.pair, hitems, Json.depth, answer_succ,
      depthAll, depthAll, depthAll, Nat.max_zero]
    exact answer_bind_ok _ _ _ _ _ rfl

end

/-! ## Records -/

namespace Fields

def names : {ts : List Type} → Fields ts → List String
  | _, .nil => []
  | _, .cons field rest => field.name :: names rest

/-- No two fields have one name. -/
def distinct {ts : List Type} (fields : Fields ts) : Bool := decide fields.names.Nodup

/-- Members other than the first field leave its slot alone. -/
theorem takeMembers_cons {α : Type} {ts : List Type} (field : Field α) (rest : Fields ts)
    (depth : Nat) (members : List (String × Json)) (h : ∀ m ∈ members, m.1 ≠ field.name)
    (slot : Option α) (slots : Slots ts) :
    takeMembers (.cons field rest) depth (memberScans members) (slot, slots) =
      (takeMembers rest depth (memberScans members) slots).map (slot, ·) := by
  induction members generalizing slots with
  | nil => rfl
  | cons m members ih =>
    obtain ⟨key, j⟩ := m
    obtain ⟨hkey, hmembers⟩ := List.forall_mem_cons.mp h
    have hmet : met? key (.cons field rest) (slot, slots) = met? key rest slots := by
      rw [met?, if_neg (Ne.symm hkey)]
    have hput : put key depth j.toScan (.cons field rest) (slot, slots) =
        (put key depth j.toScan rest slots).map (slot, ·) := by
      rw [put, if_neg (Ne.symm hkey)]
      cases put key depth j.toScan rest slots <;> rfl
    rw [memberScans, takeMembers, takeMembers, accept, accept, hmet]
    rcases met? key rest slots with _ | _ | _
    · have hskip : ∀ r : Except Fault Unit,
          (r >>= fun _ => takeMembers (.cons field rest) depth (memberScans members) (slot, slots)) =
            (r >>= fun _ => takeMembers rest depth (memberScans members) slots).map (slot, ·) := by
        intro r
        cases r with
        | error e => rfl
        | ok _ => exact ih hmembers slots
      exact hskip _
    · show (put key depth j.toScan (.cons field rest) (slot, slots) >>=
          takeMembers (.cons field rest) depth (memberScans members)) =
        (put key depth j.toScan rest slots >>= takeMembers rest depth (memberScans members)).map _
      rw [hput]
      cases put key depth j.toScan rest slots with
      | error e => rfl
      | ok slots' => exact ih hmembers slots'
    · rfl

/-- Members for the fields one after another, with a value for each; a field that is left out takes
the value it has when it is absent. -/
inductive Written (k : Nat) : {ts : List Type} → Fields ts → List (List (String × Json)) →
    Values ts → Prop where
  | nil : Written k .nil [] ()
  | present {α : Type} {ts : List Type} {field : Field α} {rest : Fields ts} {j : Json} {a : α}
      {members : List (List (String × Json))} {values : Values ts} (read : Reads k field.read j a)
      (tail : Written k rest members values) :
      Written k (.cons field rest) ([(field.name, j)] :: members) (a, values)
  | absent {α : Type} {ts : List Type} {field : Field α} {rest : Fields ts} {a : α}
      {members : List (List (String × Json))} {values : Values ts} (default : field.absent = some a)
      (tail : Written k rest members values) : Written k (.cons field rest) ([] :: members) (a, values)

section

variable {k : Nat} {ts : List Type} {fields : Fields ts} {members : List (List (String × Json))}
  {values : Values ts}

theorem Written.fits (h : Written k fields members values) : FitsMembers members.flatten := by
  induction h with
  | nil => trivial
  | present read _ ih => exact ⟨read.fits, ih⟩
  | absent _ _ ih => exact ih

theorem Written.mem_names (h : Written k fields members values) :
    ∀ m ∈ members.flatten, m.1 ∈ fields.names := by
  induction h with
  | nil => exact fun m hm => absurd hm List.not_mem_nil
  | present _ _ ih =>
    intro m hm
    rcases List.mem_cons.mp hm with rfl | hm
    · exact List.mem_cons_self ..
    · exact List.mem_cons_of_mem _ (ih m hm)
  | absent _ _ ih => exact fun m hm => List.mem_cons_of_mem _ (ih m hm)

/-- The members fill slots from which the values are taken. -/
theorem Written.takeMembers_eq (h : Written k fields members values) (hnames : fields.names.Nodup) :
    ∃ slots, fields.finish slots = .ok values ∧ ∀ depth < k,
      fields.takeMembers depth (memberScans members.flatten) fields.noSlots =
        answer (depthMembers members.flatten) depth slots := by
  induction h with
  | nil => exact ⟨(), rfl, fun depth _ => (answer_zero depth ()).symm⟩
  | @present α ts field rest j a members values read tail ih =>
    obtain ⟨hfield, hrest⟩ := List.nodup_cons.mp hnames
    obtain ⟨slots, hfinish, htake⟩ := ih hrest
    have hother : ∀ m ∈ members.flatten, m.1 ≠ field.name := fun m hm heq =>
      hfield (heq ▸ tail.mem_names m hm)
    refine ⟨(some a, slots), ?_, fun depth hdepth => ?_⟩
    · rw [finish, hfinish]
      rfl
    · have hput : put field.name depth j.toScan (.cons field rest) (none, noSlots rest) =
          answer j.depth depth (some a, noSlots rest) := by
        rw [put, if_pos rfl, read.eq_answer depth hdepth]
        exact answer_bind_ok _ _ _ _ _ rfl
      have hmet : met? field.name (.cons field rest) (none, noSlots rest) = some false := by
        rw [met?, if_pos rfl]
        rfl
      rw [List.flatten_cons, List.singleton_append, memberScans, noSlots, takeMembers, accept, hmet]
      show (put field.name depth j.toScan (.cons field rest) (none, noSlots rest) >>=
        takeMembers (.cons field rest) depth (memberScans members.flatten)) = _
      rw [hput, depthMembers]
      refine answer_bind _ _ _ _ _ _ ?_
      rw [takeMembers_cons _ _ _ _ hother, htake depth hdepth, answer_map]
  | @absent α ts field rest a members values default tail ih =>
    obtain ⟨hfield, hrest⟩ := List.nodup_cons.mp hnames
    obtain ⟨slots, hfinish, htake⟩ := ih hrest
    have hother : ∀ m ∈ members.flatten, m.1 ≠ field.name := fun m hm heq =>
      hfield (heq ▸ tail.mem_names m hm)
    refine ⟨(none, slots), ?_, fun depth hdepth => ?_⟩
    · simp only [finish, default, hfinish]
      rfl
    · rw [List.flatten_cons, List.nil_append, noSlots, takeMembers_cons _ _ _ _ hother,
        htake depth hdepth, answer_map]

end

end Fields

theorem reads_record {α : Type} {k : Nat} {name : String} {ts : List Type} {fields : Fields ts}
    {members : List (List (String × Json))} {values : Values ts} {build : Values ts → α} {a : α}
    (h : fields.Written k members values) (hdistinct : fields.distinct = true)
    (hbuild : build values = a) :
    Reads k (record name fields build) (.object members.flatten) a := by
  obtain ⟨slots, hfinish, htake⟩ := h.takeMembers_eq (of_decide_eq_true hdistinct)
  refine ⟨h.fits, fun depth hdepth => ?_⟩
  cases depth with
  | zero => simp [toScan, record, answer, Json.depth]
  | succ depth =>
    rw [toScan, record, htake depth (Nat.lt_of_succ_lt hdepth), Json.depth, answer_succ]
    refine answer_bind_ok _ _ _ _ _ ?_
    rw [hfinish, ← hbuild]
    rfl

/-! ## Variants -/

section

variable {α : Type} {k : Nat} {table : List (Variant α)} {name : String} {a : α}

theorem reads_bare (hname : variantNamed table name = .ok (.unit a)) :
    Reads k (variant table) (.string name) a := by
  refine ⟨trivial, fun depth _ => ?_⟩
  rw [toScan, variant, Json.depth, answer_zero]
  show (variantNamed table name >>= Content.bare) = .ok a
  rw [hname]
  rfl

/-- The object around a variant takes one more list or object. -/
theorem reads_variant {content : Content α} {j : Json}
    (hname : variantNamed table name = .ok content) (h : Reads k content.read j a) :
    Reads (k + 1) (Decoder.variant table) (.object [(name, j)]) a := by
  refine ⟨⟨h.fits, trivial⟩, fun depth hdepth => ?_⟩
  cases depth with
  | zero => simp [toScan, memberScans, Decoder.variant, answer, Json.depth]
  | succ depth =>
    rw [toScan, memberScans, memberScans, Decoder.variant, Json.depth, answer_succ, depthMembers,
      depthMembers, Nat.max_zero]
    show (variantNamed table name >>= _) = _
    rw [hname]
    show (content.read depth j.toScan >>= _) = _
    rw [h.eq_answer depth (Nat.lt_of_succ_lt_succ hdepth)]
    exact answer_bind_ok _ _ _ _ _ rfl

/-- No variant is written as `null`. -/
theorem Reads.ne_null_of_variant {j : Json} (h : Reads (k + 1) (variant table) j a) :
    j ≠ .null := by
  rintro rfl
  have hanswer := h.eq_answer 0 (Nat.succ_pos k)
  rw [Json.depth, answer_zero] at hanswer
  cases hanswer

end

/-! ## Texts -/

/-- A text that was written is read, or nests too deeply. -/
theorem Reads.decodeText_eq {α : Type} {k : Nat} {p : Decoder α} {j : Json} {a : α}
    (h : Reads k p j a) (hk : depthLimit < k) :
    decodeText p j.text = answer j.depth depthLimit a := by
  rw [decodeText, ofChars_text h.fits]
  show (p depthLimit j.toScan >>= _) = _
  rw [h.eq_answer depthLimit hk]
  exact answer_bind_ok _ _ _ _ _ rfl

end Decoder

end CeylonFromJava.Json
