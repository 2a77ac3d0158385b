import CeylonFromJava.Proofs.Conversion.ReservedSegments

/-! Temporaries and the names of a unit.

The name of a temporary is made from its number alone, whatever names the unit has. So a unit that uses
such a name itself can find it bound to something else. It cannot if it has none of the names with the
numbers that it takes. -/
namespace CeylonFromJava.Conversion
set_option autoImplicit false

open Ceylon (Token TempRef tempName)
open Ceylon.Token (names events)
open Ceylon.TempEvent (bindings pending bindings_append pending_append)
open Ceylon.Name (marker)
open Java (Word segments segments_of_not_mem)

/-! ## Names that are no temporaries -/

/-- The text is not the name of a temporary with a number from `k` up to `l`. -/
def Avoids (k l : Nat) (x : String) : Prop := ∀ t : TempRef, k ≤ t.2 → t.2 < l → x ≠ t.name

section

variable {k l : Nat}

instance (x : String) : Decidable (Avoids k l x) :=
  decidable_of_iff
    (∀ n < l, k ≤ n → x ≠ TempRef.name (.array, n) ∧ x ≠ TempRef.name (.index, n))
    ⟨fun h t hk hl => by
      obtain ⟨role, n⟩ := t
      cases role
      · exact (h n hl hk).1
      · exact (h n hl hk).2,
    fun h n hl hk => ⟨h (.array, n) hk hl, h (.index, n) hk hl⟩⟩

theorem avoids_of_head {x : String} (h : x.toList.head? ≠ some 'a') (h' : x.toList.head? ≠ some 'i') :
    Avoids k l x := by
  rintro ⟨role, n⟩ - - rfl
  cases role
  · exact h (by simp [TempRef.name, tempName, Ceylon.Role.word, Ceylon.arrayRole])
  · exact h' (by simp [TempRef.name, tempName, Ceylon.Role.word, Ceylon.indexRole])

theorem avoids_marker (x : String) : Avoids k l (marker ++ x) :=
  avoids_of_head (by simp [marker]) (by simp [marker])

/-- A marker changes the first segment only. -/
theorem mem_segments_marker {x s : String} (h : s ∈ segments (marker ++ x)) :
    s ∈ segments x ∨ ∃ y, s = marker ++ y := by
  have hchars : (marker ++ x).toList = '\\' :: 'i' :: x.toList := by simp [marker]
  obtain ⟨cs, css, hcs⟩ := List.exists_cons_of_ne_nil (List.splitOn_ne_nil '.' x.toList)
  rw [segments, hchars, List.splitOn_cons_eq_if_modifyHead, if_neg (by decide),
    List.splitOn_cons_eq_if_modifyHead, if_neg (by decide), hcs, List.modifyHead_cons,
    List.modifyHead_cons, List.map_cons, List.mem_cons] at h
  rw [segments, hcs, List.map_cons, List.mem_cons]
  rcases h with rfl | hmem
  · refine .inr ⟨String.ofList cs, String.toList_injective ?_⟩
    simp [marker]
  · exact .inl (.inr hmem)

/-- A word is written as it stands or with a marker. -/
theorem avoids_segments_ite {x : String} (marked : Bool) (h : ∀ s ∈ segments x, Avoids k l s) :
    ∀ s ∈ segments (if marked then marker ++ x else x), Avoids k l s := by
  cases marked with
  | false => exact h
  | true =>
    intro s hs
    rcases mem_segments_marker hs with hold | ⟨y, rfl⟩
    · exact h s hold
    · exact avoids_marker y

end

/-! ## Units -/

/-- The properties that the methods of a unit read, if accessor calls are converted. -/
def accessedProperties (config : Config) (u : Java.CompilationUnit) : List String :=
  if config.convertGetters then u.words.filterMap fun
    | .method x => Ceylon.Name.property x
    | _ => none
  else []

theorem admits_avoids {config : Config} {u : Java.CompilationUnit} {k l : Nat}
    (h : ∀ x ∈ u.identifiers ++ accessedProperties config u, Avoids k l x) :
    Admits config (fun w => w ∈ u.words) (fun x => ∀ s ∈ segments x, Avoids k l s) := by
  obtain ⟨hidentifiers, hproperties⟩ := List.forall_mem_append.mp h
  have hwords : ∀ w ∈ u.words, ∀ s ∈ segments w.text, Avoids k l s :=
    fun w hw s hs => hidentifiers s (List.mem_flatMap.mpr ⟨w, hw, hs⟩)
  have hadded : ∀ x : String, '.' ∉ x.toList → Avoids k l x → ∀ s ∈ segments x, Avoids k l s := by
    intro x hx havoids
    rw [segments_of_not_mem hx]
    exact List.forall_mem_singleton.mpr havoids
  refine ⟨?_, ?_, ?_, ?_, ?_, ?_⟩
  · exact fun x hx => avoids_segments_ite _ (hwords _ hx)
  · exact fun x hx => avoids_segments_ite _ (hwords _ hx)
  · exact fun x hx => avoids_segments_ite _ (hwords _ hx)
  · intro x property hgetters hx hproperty
    refine avoids_segments_ite _ (hadded property (undotted_property hproperty) ?_)
    refine hproperties property ?_
    rw [accessedProperties, if_pos hgetters]
    exact List.mem_filterMap.mpr ⟨_, hx, hproperty⟩
  · exact hadded _ (by decide) (avoids_of_head (by decide) (by decide))
  · exact hadded _ (by decide) (avoids_of_head (by decide) (by decide))

/-! ## A unit that names a temporary -/

theorem undotted_tempName (t : TempRef) : '.' ∉ t.name.toList := by
  rw [TempRef.name, tempName, String.toList_append, List.mem_append, not_or]
  constructor
  · cases t.1 <;> decide
  · intro hmem
    rw [Nat.toList_repr] at hmem
    exact absurd (Nat.isDigit_of_mem_toDigits (by decide) (by decide) hmem) (by decide)

/-- A temporary's name ends in a digit, which no reserved word has. -/
theorem word_tempName (t : TempRef) : Ceylon.Name.word t.name = t.name := by
  have hall : (Ceylon.Name.reservedWords.all fun w => w.toList.all fun c => !c.isDigit) = true := by
    decide
  refine if_neg fun hreserved => ?_
  have hletters := List.all_eq_true.mp hall _ (mem_reservedWords.mp hreserved)
  obtain ⟨c, hc⟩ := List.exists_mem_of_ne_nil (Nat.toDigits 10 t.2) Nat.toDigits_ne_nil
  have hmem : c ∈ t.name.toList := by simp [TempRef.name, tempName, hc]
  have hdigit : c.isDigit = true := Nat.isDigit_of_mem_toDigits (by decide) (by decide) hc
  simpa [hdigit] using List.all_eq_true.mp hletters c hmem

/-- `f()[g()] += value`, which binds its array and its index. -/
def updating (value : Java.Expr) : Java.Stmt :=
  .expr (.assign (.index (.call none [] "f" []) (.call none [] "g" [])) (.compound .add) value)

/-- The first updates take the numbers below `t.2`. The last one has the name of its own temporary `t` in
its value. -/
def namingUpdates (t : TempRef) : List Java.Stmt :=
  List.replicate t.2 (updating .thisRef) ++ [updating (.name t.name)]

def namingUnit (t : TempRef) : Java.CompilationUnit :=
  ⟨none, [], [.ofClass ⟨[], "C", [], none, [], [.initializer (namingUpdates t)]⟩]⟩

theorem mem_identifiers_namingUnit (t : TempRef) : t.name ∈ (namingUnit t).identifiers := by
  refine List.mem_flatMap.mpr ⟨.name t.name, ?_, ?_⟩
  · have hlast : updating (.name t.name) ∈ namingUpdates t := by simp [namingUpdates]
    have hword : Word.name t.name ∈ (updating (.name t.name)).words := by
      simp [updating, Java.Stmt.words, Java.Expr.words]
    have hmem : Word.name t.name ∈ Java.Stmt.wordsList (namingUpdates t) := by
      rw [Java.Stmt.wordsList_eq]
      exact List.mem_flatMap.mpr ⟨_, hlast, hword⟩
    simp [namingUnit, Java.CompilationUnit.words, Java.TypeDecl.words, Java.Member.wordsList,
      Java.Member.words, hmem]
  · simp [Word.text, segments_of_not_mem (undotted_tempName t)]

section

variable (env : Env) (scope : Scope)

theorem stmt_updating (value : Java.Expr) : stmt env (updating value) scope =
    [.update (.bound (.call none "f" [] [])) (.bound (.call none "g" [] [])) .add
      (grouped (value.precedence < Java.ArithOp.add.precedence + 1) (expr env value scope))] := by
  have hcall : ∀ name, Ceylon.Name.property name = none → Ceylon.Name.small name = name →
      (name == "println") = false → expr env (.call none [] name []) scope = .call none name [] [] := by
    intro name hproperty hsmall hprint
    have hnone : propertyOf env.config name [] = none := by
      rw [propertyOf, hproperty, ite_self]
    simp [expr, hprint, hnone, hsmall, callTarget, exprs]
  have hf := hcall "f" (by decide) (by decide) (by decide)
  have hg := hcall "g" (by decide) (by decide) (by decide)
  simp [updating, stmt, exprStmt, element, Element.arraySlot, Element.indexSlot, isPure, hf, hg]

theorem tempsList_replicate_updating (n : Nat) :
    Ceylon.Stmt.tempsList (stmts env (List.replicate n (updating .thisRef)) scope) = n := by
  induction n with
  | zero => rfl
  | succ n ih =>
    rw [List.replicate_succ, stmts, stmt_updating, List.singleton_append, Ceylon.Stmt.tempsList, ih,
      Nat.add_comm]
    rfl

/-- Where its name stands in the value, the temporary is bound and its update is open. -/
theorem tokens_updating_name (t : TempRef) :
    ∃ before after, Ceylon.Stmt.tokensList (stmt env (updating (.name t.name)) scope) t.2 =
        before ++ .name t.name :: after ∧
      t ∈ bindings (events before) ∧ pending [] (events before) = [t.2] := by
  have hvalue : grouped ((Java.Expr.name t.name).precedence < Java.ArithOp.add.precedence + 1)
      (expr env (.name t.name) scope) = .name t.name := by
    rw [expr, word_tempName]
    rfl
  let call := fun name => Ceylon.Slot.bound (.call none name [] [])
  obtain ⟨before, after, htokens, hevents⟩ :=
    Ceylon.Stmt.tokens_update (call "f") (call "g") rfl .add (.name t.name) t.2
  refine ⟨before, after, ?_, ?_⟩
  · rw [stmt_updating, hvalue]
    refine (List.append_nil _).trans (htokens.trans ?_)
    simp [Ceylon.Expr.pieces]
  · obtain ⟨role, n⟩ := t
    rw [hevents]
    cases role <;> simp [call, Ceylon.Slot.bindingPieces, Ceylon.Slot.usePieces, Ceylon.Expr.pieces,
      Ceylon.Expr.targetPieces, Ceylon.Expr.piecesList]

end

section

variable (config : Config) (t : TempRef)

theorem tokens_namingUnit :
    ∃ n head tail, events head = [] ∧ (unit config [] (namingUnit t)).tokens 0 =
      head ++ Ceylon.Stmt.tokensList
        (stmts (Env.upTo config (fun _ _ => []) n) (namingUpdates t) []) 0 ++ tail := by
  refine ⟨budget [] (namingUnit t),
    Token.plain [.text "class ", .text "C", .text "", .text "()", .text "", .text "", .text " ",
      .text "\x7b", .newline, .indent],
    Token.plain [.dedent, .text "\x7d", .newline], by simp, ?_⟩
  simp only [unit, unitUpTo, namingUnit, List.map_cons, List.map_nil, typeDecl, members, member,
    Ceylon.Source.pieces, Ceylon.TypeDecl.piecesList, Ceylon.TypeDecl.pieces, Ceylon.Member.piecesList,
    Ceylon.Member.pieces, Output.Piece.braced, List.append_assoc]
  rfl

/-- The name stands in the update that the temporary belongs to, after the binding. -/
theorem exists_name_after_binding :
    ∃ before after, (unit config [] (namingUnit t)).tokens 0 = before ++ .name t.name :: after ∧
      t ∈ bindings (events before) ∧ (pending [] (events before)).head? = some t.2 := by
  obtain ⟨n, head, tail, hhead, hunit⟩ := tokens_namingUnit config t
  let env := Env.upTo config (fun _ _ => []) n
  let earlier := Ceylon.Stmt.tokensList (stmts env (List.replicate t.2 (updating .thisRef)) []) 0
  obtain ⟨before, after, hnaming, hbound, hopen⟩ := tokens_updating_name env [] t
  -- The updates before it are closed again, so its own is the only one that is open.
  have hearlier : pending [] (events earlier) = [] := by
    have henv := Env.proper_upTo (admits_anything config) n
    have hproper := (properTrees_closed henv).stmts goodWords_hereditary
      (List.replicate t.2 (updating .thisRef)) [] fun _ _ => ⟨fun _ _ => trivial, fun _ _ => trivial⟩
    exact (Ceylon.Stmt.orderly_list _ (proper_stmts hproper) 0).1.pending_eq_nil
  refine ⟨head ++ (earlier ++ before), after ++ tail, ?_, ?_, ?_⟩
  · rw [hunit, namingUpdates, stmts_append, Ceylon.Stmt.tokensList_append,
      tempsList_replicate_updating, Nat.zero_add, stmts_singleton, hnaming]
    simp [earlier, env]
  · simp [bindings_append, hbound]
  · simp [pending_append, hhead, hearlier, hopen]

end

/-! ## Captured names -/

/-- A unit binds temporaries with the numbers that it takes. If it has none of their names, neither as an
identifier nor as a property that an accessor becomes, then no name in its text is that of a temporary
it binds. But each temporary can be captured: some unit has its name in the update where it is bound. -/
theorem temporaries_avoid_identifiers (config : Config) :
    (∀ (u : Java.CompilationUnit) (k : Nat),
      let source := unit config [] u
      let bound := bindings (events (source.tokens k))
      (∀ t ∈ bound, k ≤ t.2 ∧ t.2 < k + source.temps) ∧
      ((∀ x ∈ u.identifiers ++ accessedProperties config u, Avoids k (k + source.temps) x) →
        ∀ t ∈ bound, t.name ∉ u.identifiers ∧
          ∀ x ∈ names (source.tokens k), t.name ∉ segments x)) ∧
    ∀ t : TempRef, ∃ (u : Java.CompilationUnit) (before after : List Token),
      t.name ∈ u.identifiers ∧
      (unit config [] u).tokens 0 = before ++ .name t.name :: after ∧
      t ∈ bindings (events before) ∧ (pending [] (events before)).head? = some t.2 := by
  constructor
  · intro u k source bound
    have hnumbers : ∀ t ∈ bound, k ≤ t.2 ∧ t.2 < k + source.temps := by
      intro t ht
      have htakes := (orderly_unit (admits_anything config) (u := u) (by simp) k).1
      exact (htakes.mem_bindings t.2).mp ⟨t.1, ht⟩
    refine ⟨hnumbers, fun havoids t ht => ?_⟩
    obtain ⟨hle, hlt⟩ := hnumbers t ht
    have hnames := (orderly_unit (admits_avoids havoids) (fun w hw => hw) k).2
    exact ⟨fun hmem => havoids _ (List.mem_append_left _ hmem) t hle hlt rfl,
      fun x hx hsegment => hnames x hx _ hsegment t hle hlt rfl⟩
  · intro t
    obtain ⟨before, after, htokens, hbound⟩ := exists_name_after_binding config t
    exact ⟨namingUnit t, before, after, mem_identifiers_namingUnit t, htokens, hbound⟩

/-- `f()[0] += array1;` binds `array0` only. -/
theorem temporaries_avoid_identifiers_other_number :
    let target : Java.Expr := .index (.call none [] "f" []) (.literal (.number "0"))
    let u : Java.CompilationUnit := ⟨none, [], [.ofClass ⟨[], "C", [], none, [],
      [.initializer [.expr (.assign target (.compound .add) (.name "array1"))]]⟩]⟩
    let ts := (unit Config.default [] u).tokens 0
    bindings (events ts) = [(.array, 0)] ∧ names ts = ["f", "array1"] ∧
      ∀ x ∈ names ts, TempRef.name (.array, 0) ∉ segments x := by
  intro target u ts
  have hbindings : bindings (events ts) = [(.array, 0)] := by decide +kernel
  have havoids : ∀ x ∈ u.identifiers ++ accessedProperties Config.default u,
      Avoids 0 (0 + (unit Config.default [] u).temps) x := by decide +kernel
  have hbound : (.array, 0) ∈ bindings (events ts) := by simp [hbindings]
  exact ⟨hbindings, by decide +kernel,
    (((temporaries_avoid_identifiers Config.default).1 u 0).2 havoids _ hbound).2⟩

/-- `f()[0] += array0;` adds the array to itself. -/
theorem array_name_captured :
    let target : Java.Expr := .index (.call none [] "f" []) (.literal (.number "0"))
    let u : Java.CompilationUnit := ⟨none, [], [.ofClass ⟨[], "C", [], none, [],
      [.method ⟨[], [], none, "m", [],
        some [.expr (.assign target (.compound .add) (.name "array0"))]⟩]⟩]⟩
    "array0" ∈ u.identifiers ∧
      text Config.default u = "class C() \x7b\n    void m() \x7b\n        value array0 = f();\n" ++
        "        array0.set(0, array0.get(0) + array0);\n    \x7d\n\x7d\n" := by
  decide +kernel

end CeylonFromJava.Conversion
