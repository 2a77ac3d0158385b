import CeylonFromJava.Proofs.Json.Literals

/-! The texts of a tree.

`Text s w` says that `w` is a text of the scanned value `s`, which has no broken part. A text scans
to the tree it is a text of, and a scan that comes to its end has found such a text. -/
namespace CeylonFromJava.Json
set_option autoImplicit false

/-! ## Grammar -/

def Blanks (b : List Char) : Prop := ∀ c ∈ b, isBlank c = true

theorem blanks_nil : Blanks [] := fun _ h => nomatch h

mutual
/-- A value without blanks around it. -/
inductive Text : Scan → List Char → Prop where
  | literal {s : Scan} {w : List Char} (scan : scanScalar w = (s, some [])) : Text s w
  | noItems {b : List Char} (blanks : Blanks b) : Text (.array [] .closed) ('[' :: (b ++ [']']))
  | array {xs : List Scan} {w : List Char} (items : Items xs w) :
      Text (.array xs .closed) ('[' :: (w ++ [']']))
  | noMembers {b : List Char} (blanks : Blanks b) :
      Text (.object [] .closed) ('\x7b' :: (b ++ ['\x7d']))
  | object {ms : List (Except Fault String × Scan)} {w : List Char} (members : Members ms w) :
      Text (.object ms .closed) ('\x7b' :: (w ++ ['\x7d']))

/-- A value with blanks around it. -/
inductive Element : Scan → List Char → Prop where
  | mk {s : Scan} {b w e : List Char} (before : Blanks b) (text : Text s w) (after : Blanks e) :
      Element s (b ++ w ++ e)

/-- One value or more, with commas between them. -/
inductive Items : List Scan → List Char → Prop where
  | one {s : Scan} {w : List Char} (item : Element s w) : Items [s] w
  | cons {s : Scan} {xs : List Scan} {w v : List Char} (item : Element s w) (more : Items xs v) :
      Items (s :: xs) (w ++ ',' :: v)

/-- A key and a value. -/
inductive Member : Except Fault String × Scan → List Char → Prop where
  | mk {key : Except Fault String} {s : Scan} {b k e w : List Char} (before : Blanks b)
      (name : scanString k = (.string key, some [])) (after : Blanks e) (value : Element s w) :
      Member (key, s) (b ++ '"' :: k ++ e ++ ':' :: w)

/-- One member or more, with commas between them. -/
inductive Members : List (Except Fault String × Scan) → List Char → Prop where
  | one {m : Except Fault String × Scan} {w : List Char} (member : Member m w) : Members [m] w
  | cons {m : Except Fault String × Scan} {ms : List (Except Fault String × Scan)}
      {w v : List Char} (member : Member m w) (more : Members ms v) :
      Members (m :: ms) (w ++ ',' :: v)
end

/-! ## Blanks -/

theorem dropBlanks_append {b : List Char} (hb : Blanks b) (cs : List Char) :
    dropBlanks (b ++ cs) = dropBlanks cs := by
  induction b with
  | nil => rfl
  | cons c b ih =>
    obtain ⟨hc, hb⟩ := List.forall_mem_cons.mp hb
    rw [← ih hb, List.cons_append, dropBlanks, List.dropWhile_cons_of_pos hc]
    rfl

theorem exists_blanks (cs : List Char) : ∃ b, Blanks b ∧ cs = b ++ dropBlanks cs :=
  ⟨cs.takeWhile isBlank, fun _ hc => List.all_eq_true.mp List.all_takeWhile _ hc,
    List.takeWhile_append_dropWhile.symm⟩

theorem dropBlanks_dropBlanks (cs : List Char) : dropBlanks (dropBlanks cs) = dropBlanks cs := by
  obtain ⟨b, hb, hcs⟩ := exists_blanks cs
  exact (dropBlanks_append hb _).symm.trans (congrArg dropBlanks hcs.symm)

theorem endsLiteral_of_dropBlanks {cs : List Char} (h : EndsLiteral (dropBlanks cs)) :
    EndsLiteral cs := by
  obtain ⟨b, hb, hcs⟩ := exists_blanks cs
  cases b with
  | nil => rwa [hcs]
  | cons c b =>
    rw [hcs]
    rintro _ ⟨⟩
    exact .inl (hb c (List.mem_cons_self ..))

theorem Blanks.endsLiteral {b rest : List Char} (hb : Blanks b) (hrest : EndsLiteral rest) :
    EndsLiteral (b ++ rest) := by
  cases b with
  | nil => exact hrest
  | cons c b =>
    rintro _ ⟨⟩
    exact .inl (hb c (List.mem_cons_self ..))

theorem endsLiteral_cons {c : Char} (h : c = ',' ∨ c = ']' ∨ c = '\x7d') (cs : List Char) :
    EndsLiteral (c :: cs) := by
  rintro _ ⟨⟩
  exact .inr h

theorem scanValue_dropBlanks (fuel : Nat) (cs : List Char) :
    scanValue fuel (dropBlanks cs) = scanValue fuel cs := by
  cases fuel with
  | zero => simp [scanValue]
  | succ fuel => rw [scanValue, scanValue, dropBlanks_dropBlanks]

theorem scanItems_dropBlanks (fuel : Nat) (cs : List Char) :
    scanItems fuel (dropBlanks cs) = scanItems fuel cs := by
  cases fuel with
  | zero => simp [scanItems]
  | succ fuel => rw [scanItems, scanItems, scanValue_dropBlanks]

/-! ## First characters -/

theorem scanScalar_append {w x : List Char} {s : Scan} (h : scanScalar w = (s, some []))
    (hx : EndsLiteral x) : scanScalar (w ++ x) = (s, some x) := by
  obtain ⟨c, v, rfl, -, -, -, hscan⟩ := scanScalar_split h endsLiteral_nil
  simpa using hscan x hx

theorem scanString_append {w : List Char} {s : Scan} (h : scanString w = (s, some []))
    (x : List Char) : scanString (w ++ x) = (s, some x) := by
  obtain ⟨v, rfl, hscan⟩ := scanString_split h
  simpa using hscan x

theorem Text.exists_starts {s : Scan} {w : List Char} (h : Text s w) :
    ∃ c v, w = c :: v ∧ Starts c := by
  cases h with
  | literal scan =>
    obtain ⟨c, v, hw, hc, -⟩ := scanScalar_split scan endsLiteral_nil
    exact ⟨c, v, by simpa using hw, hc⟩
  | noItems | array | noMembers | object => exact ⟨_, _, rfl, by simp [Starts, isBlank]⟩

theorem Element.exists_starts {s : Scan} {w : List Char} (h : Element s w) :
    ∃ c v, Starts c ∧ ∀ rest, dropBlanks (w ++ rest) = c :: (v ++ rest) := by
  obtain ⟨hb, text, -⟩ := h
  rename_i b w e
  obtain ⟨c, v, rfl, hc⟩ := text.exists_starts
  refine ⟨c, v ++ e, hc, fun rest => ?_⟩
  simp [dropBlanks_append hb, dropBlanks_cons hc.1]

theorem Items.exists_starts {xs : List Scan} {w : List Char} (h : Items xs w) :
    ∃ c v, Starts c ∧ ∀ rest, dropBlanks (w ++ rest) = c :: (v ++ rest) := by
  cases h with
  | one item => exact item.exists_starts
  | cons item more =>
    rename_i w v
    obtain ⟨c, u, hc, hdrop⟩ := item.exists_starts
    exact ⟨c, u ++ ',' :: v, hc, fun rest => by simp [hdrop]⟩

theorem Member.exists_quote {m : Except Fault String × Scan} {w : List Char} (h : Member m w) :
    ∃ v, ∀ rest, dropBlanks (w ++ rest) = '"' :: (v ++ rest) := by
  obtain ⟨hb, -, -, -⟩ := h
  rename_i b k e w
  exact ⟨k ++ e ++ ':' :: w, fun rest => by simp [dropBlanks_append hb, dropBlanks_cons, isBlank]⟩

theorem Members.exists_quote {ms : List (Except Fault String × Scan)} {w : List Char}
    (h : Members ms w) : ∃ v, ∀ rest, dropBlanks (w ++ rest) = '"' :: (v ++ rest) := by
  cases h with
  | one member => exact member.exists_quote
  | cons member more =>
    rename_i w v
    obtain ⟨u, hdrop⟩ := member.exists_quote
    exact ⟨u ++ ',' :: v, fun rest => by simp [hdrop]⟩

/-! ## From texts to scans -/

theorem scanValue_bracket {c : Char} (hc : Starts c) {fuel : Nat} {cs v rest : List Char}
    {xs : List Scan} (hdrop : dropBlanks cs = c :: v)
    (h : scanItems fuel cs = (xs, .closed, some rest)) :
    scanValue (fuel + 1) ('[' :: cs) = (.array xs .closed, some rest) := by
  rw [← scanItems_dropBlanks, hdrop] at h
  rw [scanValue, dropBlanks_cons (by decide)]
  simp only [hdrop]
  split
  · rename_i hnil
    cases hnil
  · rename_i hcons
    exact absurd (List.cons.inj hcons).1 hc.2.1
  · rw [h]

theorem scanValue_brace {fuel : Nat} {cs v rest : List Char}
    {ms : List (Except Fault String × Scan)} (hdrop : dropBlanks cs = '"' :: v)
    (h : scanMembers fuel ('"' :: v) = (ms, .closed, some rest)) :
    scanValue (fuel + 1) ('\x7b' :: cs) = (.object ms .closed, some rest) := by
  rw [scanValue, dropBlanks_cons (by decide)]
  simp [hdrop, h]

theorem scanItems_next {c : Char} (hc : Starts c) {fuel : Nat} {cs r more v rest : List Char}
    {x : Scan} {xs : List Scan} (hvalue : scanValue fuel cs = (x, some r))
    (hr : dropBlanks r = ',' :: more) (hdrop : dropBlanks more = c :: v)
    (hitems : scanItems fuel more = (xs, .closed, some rest)) :
    scanItems (fuel + 1) cs = (x :: xs, .closed, some rest) := by
  rw [← scanItems_dropBlanks, hdrop] at hitems
  rw [scanItems, hvalue]
  simp only [hr, hdrop]
  split
  · rename_i hcons
    exact absurd (List.cons.inj hcons).1 hc.2.1
  · rw [hitems]

-- The recursion is on the derivation. Between the items of a list and those of an object the blanks
-- may be dropped or not: a value drops its own, a key does not.
mutual
theorem Text.scanValue_eq : {s : Scan} → {w : List Char} → Text s w → (rest : List Char) →
    EndsLiteral rest → (fuel : Nat) → 2 * w.length ≤ fuel →
    scanValue fuel (w ++ rest) = (s, some rest)
  | _, _, .literal scan, rest, hrest, fuel, hfuel => by
    obtain ⟨c, v, hw, hc, hbracket, hbrace, -⟩ := scanScalar_split scan endsLiteral_nil
    have hscan := scanScalar_append scan hrest
    rw [List.append_nil] at hw
    subst hw
    cases fuel with
    | zero => simp at hfuel
    | succ fuel => rw [List.cons_append, scanValue_scalar hc.1 hbracket hbrace, ← hscan]; rfl
  | _, _, .noItems blanks, rest, hrest, fuel + 1, hfuel => by
    simp [scanValue, dropBlanks_append blanks, dropBlanks_cons, isBlank]
  | _, _, .noMembers blanks, rest, hrest, fuel + 1, hfuel => by
    simp [scanValue, dropBlanks_append blanks, dropBlanks_cons, isBlank]
  | _, _, .array items, rest, hrest, fuel + 1, hfuel => by
    have hitems := items.scanItems_eq rest fuel (by simp at hfuel; omega)
    obtain ⟨c, v, hc, hdrop⟩ := items.exists_starts
    simpa using scanValue_bracket hc (hdrop (']' :: rest)) hitems
  | _, _, .object members, rest, hrest, fuel + 1, hfuel => by
    have hmembers := members.scanMembers_eq rest fuel (by simp at hfuel; omega)
    obtain ⟨v, hdrop⟩ := members.exists_quote
    rw [hdrop] at hmembers
    simpa using scanValue_brace (hdrop ('\x7d' :: rest)) hmembers
termination_by structural _ _ h => h

theorem Element.scanValue_eq : {s : Scan} → {w : List Char} → Element s w → (rest : List Char) →
    EndsLiteral rest → (fuel : Nat) → 2 * w.length ≤ fuel →
    ∃ b, Blanks b ∧ scanValue fuel (w ++ rest) = (s, some (b ++ rest))
  | _, _, .mk (w := w) (e := e) before text after, rest, hrest, fuel, hfuel => by
    have htext := text.scanValue_eq (e ++ rest) (after.endsLiteral hrest) fuel
      (by simp at hfuel; omega)
    refine ⟨e, after, ?_⟩
    rw [← htext, List.append_assoc, List.append_assoc, ← scanValue_dropBlanks,
      dropBlanks_append before, scanValue_dropBlanks]
termination_by structural _ _ h => h

theorem Items.scanItems_eq : {xs : List Scan} → {w : List Char} → Items xs w → (rest : List Char) →
    (fuel : Nat) → 2 * w.length < fuel →
    scanItems fuel (w ++ ']' :: rest) = (xs, .closed, some rest)
  | _, _, .one item, rest, fuel + 1, hfuel => by
    obtain ⟨b, hb, hvalue⟩ := item.scanValue_eq (']' :: rest) (endsLiteral_cons (by simp) rest) fuel
      (by omega)
    rw [scanItems, hvalue]
    simp [dropBlanks_append hb, dropBlanks_cons, isBlank]
  | _, _, .cons (v := v) item more, rest, fuel + 1, hfuel => by
    obtain ⟨b, hb, hvalue⟩ := item.scanValue_eq (',' :: (v ++ ']' :: rest))
      (endsLiteral_cons (by simp) _) fuel (by simp at hfuel; omega)
    have hitems := more.scanItems_eq rest fuel (by simp at hfuel; omega)
    obtain ⟨c, u, hc, hdrop⟩ := more.exists_starts
    simpa using scanItems_next hc hvalue (by rw [dropBlanks_append hb, dropBlanks_cons (by decide)])
      (hdrop (']' :: rest)) hitems
termination_by structural _ _ h => h

theorem Member.scan_eq : {m : Except Fault String × Scan} → {w : List Char} → Member m w →
    (rest : List Char) → EndsLiteral rest → (fuel : Nat) → 2 * w.length ≤ fuel →
    ∃ k r v b, dropBlanks (w ++ rest) = '"' :: k ∧ scanString k = (.string m.1, some r) ∧
      dropBlanks r = ':' :: v ∧ Blanks b ∧ scanValue fuel v = (m.2, some (b ++ rest))
  | _, _, .mk (k := k) (e := e) (w := w) before name after value, rest, hrest, fuel, hfuel => by
    obtain ⟨b, hb, hvalue⟩ := value.scanValue_eq rest hrest fuel (by simp at hfuel; omega)
    refine ⟨k ++ (e ++ ':' :: (w ++ rest)), e ++ ':' :: (w ++ rest), w ++ rest, b, ?_,
      scanString_append name _, ?_, hb, hvalue⟩
    · simp [dropBlanks_append before, dropBlanks_cons, isBlank]
    · rw [dropBlanks_append after, dropBlanks_cons (by decide)]
termination_by structural _ _ h => h

theorem Members.scanMembers_eq : {ms : List (Except Fault String × Scan)} → {w : List Char} →
    Members ms w → (rest : List Char) → (fuel : Nat) → 2 * w.length < fuel →
    scanMembers fuel (dropBlanks (w ++ '\x7d' :: rest)) = (ms, .closed, some rest)
  | _, _, .one member, rest, fuel + 1, hfuel => by
    obtain ⟨k, r, v, b, hdrop, hkey, hcolon, hb, hvalue⟩ :=
      member.scan_eq ('\x7d' :: rest) (endsLiteral_cons (by simp) rest) fuel (by omega)
    rw [hdrop, scanMembers]
    simp [hkey, hcolon, hvalue, dropBlanks_append hb, dropBlanks_cons, isBlank]
  | _, _, .cons (v := u) member more, rest, fuel + 1, hfuel => by
    obtain ⟨k, r, v, b, hdrop, hkey, hcolon, hb, hvalue⟩ := member.scan_eq
      (',' :: (u ++ '\x7d' :: rest)) (endsLiteral_cons (by simp) _) fuel (by simp at hfuel; omega)
    have hmembers := more.scanMembers_eq rest fuel (by simp at hfuel; omega)
    obtain ⟨z, hquote⟩ := more.exists_quote
    rw [List.append_assoc, List.cons_append, hdrop, scanMembers]
    rw [hquote] at hmembers
    simp [hkey, hcolon, hvalue, dropBlanks_append hb, dropBlanks_cons, isBlank, hquote, hmembers]
termination_by structural _ _ h => h
end

/-! ## From scans to texts -/

theorem Blanks.append {b b' : List Char} (hb : Blanks b) (hb' : Blanks b') : Blanks (b ++ b') :=
  fun c hc => (List.mem_append.mp hc).elim (hb c) (hb' c)

theorem Element.blanks_append {s : Scan} {b w : List Char} (hb : Blanks b) (h : Element s w) :
    Element s (b ++ w) := by
  obtain ⟨before, text, after⟩ := h
  simpa using Element.mk (hb.append before) text after

theorem Items.blanks_append {xs : List Scan} {b w : List Char} (hb : Blanks b) (h : Items xs w) :
    Items xs (b ++ w) := by
  cases h with
  | one item => exact .one (item.blanks_append hb)
  | cons item more => simpa using Items.cons (item.blanks_append hb) more

theorem Member.blanks_append {m : Except Fault String × Scan} {b w : List Char} (hb : Blanks b)
    (h : Member m w) : Member m (b ++ w) := by
  obtain ⟨before, name, after, value⟩ := h
  simpa using Member.mk (hb.append before) name after value

theorem Members.blanks_append {ms : List (Except Fault String × Scan)} {b w : List Char}
    (hb : Blanks b) (h : Members ms w) : Members ms (b ++ w) := by
  cases h with
  | one member => exact .one (member.blanks_append hb)
  | cons member more => simpa using Members.cons (member.blanks_append hb) more

/-! ### What can be skipped -/

section

variable {α β : Type} {result : Except Fault α} {b : β}

theorem bind_eq_ok {f : α → Except Fault β} :
    (result >>= f) = .ok b ↔ ∃ a, result = .ok a ∧ f a = .ok b := by
  cases result <;> simp [bind, Except.bind]

theorem map_eq_ok {f : α → β} : result.map f = .ok b ↔ ∃ a, result = .ok a ∧ f a = b := by
  cases result <;> simp [Except.map]

end

theorem andThen_eq_ok {first second : Except Fault Unit} :
    (first >>= fun _ => second) = .ok () ↔ first = .ok () ∧ second = .ok () :=
  bind_eq_ok.trans ⟨fun ⟨_, h⟩ => h, fun h => ⟨(), h⟩⟩

theorem skipItems_eq_ok {xs : List Scan} :
    skipItems xs = .ok () ↔ ∀ x ∈ xs, x.skip = .ok () := by
  induction xs with
  | nil => simp [skipItems]
  | cons x xs ih => rw [skipItems, List.forall_mem_cons, ← ih, andThen_eq_ok]

theorem skipMembers_eq_ok {ms : List (Except Fault String × Scan)} :
    skipMembers ms = .ok () ↔ ∀ m ∈ ms, m.2.skip = .ok () := by
  induction ms with
  | nil => simp [skipMembers]
  | cons m ms ih => rw [skipMembers, List.forall_mem_cons, ← ih, andThen_eq_ok]

/-- A list can be skipped if its items and its end can. -/
theorem skip_array_eq_ok {xs : List Scan} {stop : ArrayStop} :
    (Scan.array xs stop).skip = .ok () ↔ (∀ x ∈ xs, x.skip = .ok ()) ∧ stop.skip = .ok () := by
  rw [Scan.skip, andThen_eq_ok, skipItems_eq_ok]

theorem skip_object_eq_ok {ms : List (Except Fault String × Scan)} {stop : ObjectStop} :
    (Scan.object ms stop).skip = .ok () ↔
      (∀ m ∈ ms, m.2.skip = .ok ()) ∧ stop.skip = .ok () := by
  rw [Scan.skip, andThen_eq_ok, skipMembers_eq_ok]

theorem skip_array_ne_ok {xs : List Scan} {stop : ArrayStop} (hclosed : stop ≠ .closed)
    (hcut : stop ≠ .cut) : (Scan.array xs stop).skip ≠ .ok () := by
  intro h
  have hstop := (skip_array_eq_ok.mp h).2
  unfold ArrayStop.skip at hstop
  split at hstop <;> simp_all

theorem skip_object_ne_ok {ms : List (Except Fault String × Scan)} {stop : ObjectStop}
    (hclosed : stop ≠ .closed) (hcut : stop ≠ .cut) : (Scan.object ms stop).skip ≠ .ok () := by
  intro h
  have hstop := (skip_object_eq_ok.mp h).2
  unfold ObjectStop.skip at hstop
  split at hstop <;> simp_all

theorem skip_eq_ok_of_scanScalar {cs rest : List Char} {s : Scan}
    (h : scanScalar cs = (s, some rest)) : s.skip = .ok () := by
  cases cs with
  | nil => cases h
  | cons c cs =>
    simp only [scanScalar, scanWord, scanString, scanNumber] at h
    repeat' split at h
    all_goals cases h
    all_goals rfl

mutual
/-- A tree that has a text can be skipped. -/
theorem Text.skip_eq_ok : {s : Scan} → {w : List Char} → Text s w → s.skip = .ok ()
  | _, _, .literal scan => skip_eq_ok_of_scanScalar scan
  | _, _, .noItems _ => rfl
  | _, _, .array items => skip_array_eq_ok.mpr ⟨items.skip_eq_ok, rfl⟩
  | _, _, .noMembers _ => rfl
  | _, _, .object members => skip_object_eq_ok.mpr ⟨members.skip_eq_ok, rfl⟩
termination_by structural _ _ h => h

theorem Element.skip_eq_ok : {s : Scan} → {w : List Char} → Element s w → s.skip = .ok ()
  | _, _, .mk _ text _ => text.skip_eq_ok
termination_by structural _ _ h => h

theorem Items.skip_eq_ok : {xs : List Scan} → {w : List Char} → Items xs w →
    ∀ x ∈ xs, x.skip = .ok ()
  | _, _, .one item => List.forall_mem_singleton.mpr item.skip_eq_ok
  | _, _, .cons item more => List.forall_mem_cons.mpr ⟨item.skip_eq_ok, more.skip_eq_ok⟩
termination_by structural _ _ h => h

theorem Member.skip_eq_ok : {m : Except Fault String × Scan} → {w : List Char} → Member m w →
    m.2.skip = .ok ()
  | _, _, .mk _ _ _ value => value.skip_eq_ok
termination_by structural _ _ h => h

theorem Members.skip_eq_ok : {ms : List (Except Fault String × Scan)} → {w : List Char} →
    Members ms w → ∀ m ∈ ms, m.2.skip = .ok ()
  | _, _, .one member => List.forall_mem_singleton.mpr member.skip_eq_ok
  | _, _, .cons member more => List.forall_mem_cons.mpr ⟨member.skip_eq_ok, more.skip_eq_ok⟩
termination_by structural _ _ h => h
end

/-- A literal that ends the scan cannot be skipped. -/
theorem skip_ne_ok_of_scanScalar {cs : List Char} {s : Scan} (h : scanScalar cs = (s, none)) :
    s.skip ≠ .ok () := by
  cases cs with
  | nil =>
    cases h
    exact fun h => nomatch h
  | cons c cs =>
    simp only [scanScalar, scanWord, scanString, scanNumber] at h
    repeat' split at h
    all_goals cases h
    all_goals
      intro hok
      cases hok

theorem scanString_cases (cs : List Char) :
    (∃ key rest, scanString cs = (.string key, some rest)) ∨
      ∃ read skip, scanString cs = (.brokenString read skip, none) := by
  unfold scanString
  split
  · exact .inl ⟨_, _, rfl⟩
  · exact .inl ⟨_, _, rfl⟩
  · exact .inr ⟨_, _, rfl⟩

/-- What a scan of a value says about the text: its rest follows the text of the value, or the value
cannot be skipped. -/
def ValueScan (fuel : Nat) (cs : List Char) : Scan × Option (List Char) → Prop
  | (s, some rest) => EndsLiteral rest → ∃ b w, Blanks b ∧ Text s w ∧ cs = b ++ w ++ rest
  | (s, none) => 2 * cs.length ≤ fuel → s.skip ≠ .ok ()

def ItemsScan (fuel : Nat) (cs : List Char) : List Scan × ArrayStop × Option (List Char) → Prop
  | (xs, stop, some rest) => stop = .closed ∧ ∃ w, Items xs w ∧ cs = w ++ ']' :: rest
  | (xs, stop, none) => 2 * cs.length < fuel → (Scan.array xs stop).skip ≠ .ok ()

def MembersScan (fuel : Nat) (cs : List Char) :
    List (Except Fault String × Scan) × ObjectStop × Option (List Char) → Prop
  | (ms, stop, some rest) => stop = .closed ∧ ∃ w, Members ms w ∧ cs = w ++ '\x7d' :: rest
  | (ms, stop, none) => 2 * cs.length < fuel → (Scan.object ms stop).skip ≠ .ok ()

theorem length_dropBlanks_le (cs : List Char) : (dropBlanks cs).length ≤ cs.length :=
  (List.dropWhile_suffix _).length_le

-- By recursion on the fuel. A scan that ends early is broken where it ends only if the fuel is not
-- used up, so for that case the fuel has to exceed the length of what is left, as it does at first:
-- each step takes a character, or hands on to one that does.
mutual
theorem valueScan : (fuel : Nat) → (cs : List Char) → ValueScan fuel cs (scanValue fuel cs)
  | 0, _ => by
    rw [scanValue]
    exact fun _ h => nomatch h
  | fuel + 1, cs => by
    obtain ⟨b, hb, hcs⟩ := exists_blanks cs
    have hlength := length_dropBlanks_le cs
    rw [scanValue]
    split
    · rename_i cs' hbracket
      obtain ⟨e, he, hcs'⟩ := exists_blanks cs'
      have hlength' := length_dropBlanks_le cs'
      rw [hbracket, hcs'] at hcs
      split
      · exact fun _ h => skip_array_ne_ok (by simp) (by simp) h
      · rename_i rest hclose
        intro _
        rw [hclose] at hcs
        exact ⟨b, _, hb, .noItems he, by simp [hcs]⟩
      · have hitems := itemsScan fuel (dropBlanks cs')
        rcases hscan : scanItems fuel (dropBlanks cs') with ⟨xs, stop, _ | rest⟩
        · rw [hscan] at hitems
          exact fun hfuel => hitems (by simp only [hbracket, List.length_cons] at hlength; omega)
        · rw [hscan] at hitems
          obtain ⟨rfl, w, hw, htext⟩ := hitems
          intro _
          rw [htext] at hcs
          exact ⟨b, _, hb, .array (hw.blanks_append he), by simp [hcs]⟩
    · rename_i cs' hbrace
      obtain ⟨e, he, hcs'⟩ := exists_blanks cs'
      have hlength' := length_dropBlanks_le cs'
      rw [hbrace, hcs'] at hcs
      split
      · rename_i rest hclose
        intro _
        rw [hclose] at hcs
        exact ⟨b, _, hb, .noMembers he, by simp [hcs]⟩
      · have hmembers := membersScan fuel (dropBlanks cs')
        rcases hscan : scanMembers fuel (dropBlanks cs') with ⟨ms, stop, _ | rest⟩
        · rw [hscan] at hmembers
          exact fun hfuel => hmembers (by simp only [hbrace, List.length_cons] at hlength; omega)
        · rw [hscan] at hmembers
          obtain ⟨rfl, w, hw, htext⟩ := hmembers
          intro _
          rw [htext] at hcs
          exact ⟨b, _, hb, .object (hw.blanks_append he), by simp [hcs]⟩
    · rcases hscan : scanScalar (dropBlanks cs) with ⟨s, _ | rest⟩
      · exact fun _ => skip_ne_ok_of_scanScalar hscan
      · intro hrest
        obtain ⟨c, w, htext, -, -, -, hscalar⟩ := scanScalar_split hscan hrest
        refine ⟨b, c :: w, hb, .literal (by simpa using hscalar [] endsLiteral_nil), ?_⟩
        rw [hcs, htext, List.append_assoc]
termination_by structural fuel => fuel

theorem itemsScan : (fuel : Nat) → (cs : List Char) → ItemsScan fuel cs (scanItems fuel cs)
  | 0, _ => by
    rw [scanItems]
    exact fun h => absurd h (Nat.not_lt_zero _)
  | fuel + 1, cs => by
    have hvalue := valueScan fuel cs
    rw [scanItems]
    split
    · rename_i x hscan
      rw [hscan] at hvalue
      intro hfuel h
      exact hvalue (by omega) ((skip_array_eq_ok.mp h).1 x (by simp))
    · rename_i x r hscan
      rw [hscan] at hvalue
      obtain ⟨e, he, hr⟩ := exists_blanks r
      split
      · exact fun _ h => skip_array_ne_ok (by simp) (by simp) h
      · rename_i rest hclose
        obtain ⟨b, w, hb, htext, rfl⟩ := hvalue (endsLiteral_of_dropBlanks
          (hclose ▸ endsLiteral_cons (by simp) rest))
        exact ⟨rfl, _, .one (.mk hb htext he), by rw [hr, hclose]; simp⟩
      · rename_i more hcomma
        obtain ⟨b, w, hb, htext, rfl⟩ := hvalue (endsLiteral_of_dropBlanks
          (hcomma ▸ endsLiteral_cons (by simp) more))
        obtain ⟨f, hf, hmore⟩ := exists_blanks more
        rw [hcomma] at hr
        split
        · exact fun _ h => skip_array_ne_ok (by simp) (by simp) h
        · have hitems := itemsScan fuel (dropBlanks more)
          rcases hscan : scanItems fuel (dropBlanks more) with ⟨xs, stop, _ | rest⟩
          · rw [hscan] at hitems
            have hlength := length_dropBlanks_le more
            intro hfuel h
            rw [skip_array_eq_ok, List.forall_mem_cons] at h
            exact hitems (by simp [hr] at hfuel; omega) (skip_array_eq_ok.mpr ⟨h.1.2, h.2⟩)
          · rw [hscan] at hitems
            obtain ⟨rfl, v, hv, hrest⟩ := hitems
            rw [hrest] at hmore
            exact ⟨rfl, _, .cons (.mk hb htext he) (hv.blanks_append hf), by rw [hr, hmore]; simp⟩
      · exact fun _ h => skip_array_ne_ok (by simp) (by simp) h
termination_by structural fuel => fuel

theorem membersScan : (fuel : Nat) → (cs : List Char) → MembersScan fuel cs (scanMembers fuel cs)
  | 0, _ => by
    rw [scanMembers]
    exact fun h => absurd h (Nat.not_lt_zero _)
  | fuel + 1, cs => by
    unfold scanMembers
    split
    · rename_i cs
      rcases scanString_cases cs with ⟨key, r, hkey⟩ | ⟨read, skip, hkey⟩
      · simp only [hkey]
        obtain ⟨k, rfl, hname⟩ := scanString_split hkey
        have hname := hname []
        rw [List.append_nil] at hname
        obtain ⟨e, he, hr⟩ := exists_blanks r
        split
        · rename_i v hcolon
          have hvalue := valueScan fuel v
          rw [hcolon] at hr
          split
          · rename_i s hscan
            rw [hscan] at hvalue
            intro hfuel h
            exact hvalue (by simp [hr] at hfuel; omega)
              ((skip_object_eq_ok.mp h).1 (key, s) (by simp))
          · rename_i s z hscan
            rw [hscan] at hvalue
            obtain ⟨f, hf, hz⟩ := exists_blanks z
            split
            · exact fun _ h => skip_object_ne_ok (by simp) (by simp) h
            · rename_i rest hclose
              obtain ⟨b, w, hb, htext, rfl⟩ := hvalue (endsLiteral_of_dropBlanks
                (hclose ▸ endsLiteral_cons (by simp) rest))
              exact ⟨rfl, _, .one (.mk blanks_nil hname he (.mk hb htext hf)),
                by rw [hr, hz, hclose]; simp⟩
            · rename_i more hcomma
              obtain ⟨b, w, hb, htext, rfl⟩ := hvalue (endsLiteral_of_dropBlanks
                (hcomma ▸ endsLiteral_cons (by simp) more))
              obtain ⟨g, hg, hmore⟩ := exists_blanks more
              rw [hcomma] at hz
              split
              · exact fun _ h => skip_object_ne_ok (by simp) (by simp) h
              · have hmembers := membersScan fuel (dropBlanks more)
                rcases hscan : scanMembers fuel (dropBlanks more) with ⟨ms, stop, _ | rest⟩
                · rw [hscan] at hmembers
                  have hlength := length_dropBlanks_le more
                  intro hfuel h
                  rw [skip_object_eq_ok, List.forall_mem_cons] at h
                  exact hmembers (by simp [hr, hz] at hfuel; omega)
                    (skip_object_eq_ok.mpr ⟨h.1.2, h.2⟩)
                · rw [hscan] at hmembers
                  obtain ⟨rfl, u, hu, hrest⟩ := hmembers
                  rw [hrest] at hmore
                  exact ⟨rfl, _, .cons (.mk blanks_nil hname he (.mk hb htext hf))
                    (hu.blanks_append hg), by rw [hr, hz, hmore]; simp⟩
            · exact fun _ h => skip_object_ne_ok (by simp) (by simp) h
        · exact fun _ h => skip_object_ne_ok (by simp) (by simp) h
      · simp only [hkey]
        exact fun _ h => skip_object_ne_ok (by simp) (by simp) h
    · exact fun _ h => skip_object_ne_ok (by simp) (by simp) h
termination_by structural fuel => fuel
end

/-! ## Whole texts -/

/-- The characters of `text` are a text of `s`, with blanks around it or not. -/
def Spells (text : String) (s : Scan) : Prop := Element s text.toList

theorem Spells.ofChars_eq {text : String} {s : Scan} (h : Spells text s) :
    ∃ b, Blanks b ∧ Scan.ofChars text.toList = (s, some b) := by
  obtain ⟨b, hb, hscan⟩ := h.scanValue_eq [] endsLiteral_nil (2 * text.toList.length + 2) (by omega)
  exact ⟨b, hb, by simpa [Scan.ofChars] using hscan⟩

theorem dropBlanks_of_blanks {b : List Char} (hb : Blanks b) : dropBlanks b = [] := by
  simpa [dropBlanks] using dropBlanks_append hb []

/-- A text is a text of one tree at most. -/
theorem Spells.unique {text : String} {s s' : Scan} (h : Spells text s) (h' : Spells text s') :
    s = s' := by
  obtain ⟨b, -, hs⟩ := h.ofChars_eq
  obtain ⟨b', -, hs'⟩ := h'.ofChars_eq
  cases hs.symm.trans hs'
  rfl

theorem spells_of_ofChars {text : String} {s : Scan} {rest : List Char}
    (h : Scan.ofChars text.toList = (s, some rest)) (hrest : dropBlanks rest = []) :
    Spells text s := by
  obtain ⟨e, he, hblanks⟩ := exists_blanks rest
  rw [hrest, List.append_nil] at hblanks
  subst hblanks
  have hscan := valueScan (2 * text.toList.length + 2) text.toList
  rw [← Scan.ofChars, h] at hscan
  obtain ⟨b, w, hb, hw, htext⟩ := hscan (by simpa using he.endsLiteral endsLiteral_nil)
  rw [Spells, htext]
  exact .mk hb hw he

theorem skip_ne_ok_of_ofChars {cs : List Char} {s : Scan} (h : Scan.ofChars cs = (s, none)) :
    s.skip ≠ .ok () := by
  have hscan := valueScan (2 * cs.length + 2) cs
  rw [← Scan.ofChars, h] at hscan
  exact hscan (by omega)

end CeylonFromJava.Json
