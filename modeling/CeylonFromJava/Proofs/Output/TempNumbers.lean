import CeylonFromJava.Proofs.Conversion.ProperTrees
import CeylonFromJava.Proofs.Output.UnitsApart

/-! Temporaries along a run of a writer.

The units of a run are written with numbers that go on from one unit to the next. So the tokens of the
whole run are those of one long text, and its ledger is kept from the first unit to the last. -/
namespace CeylonFromJava.Output
set_option autoImplicit false

open Conversion (Config)
open Ceylon (Token TempRef TempEvent Ledger)
open Ceylon.Token (events erase)
open Ceylon.TempEvent (openings bindings pending)

namespace Writer

/-! ## The tokens of a run -/

/-- The tokens of units one after another, with `k` the first number. -/
def runTokens : Nat → List (Config × Java.CompilationUnit) → List Token
  | _, [] => []
  | k, (config, u) :: steps =>
    (Conversion.unit config [] u).tokens k ++
      runTokens (k + (Conversion.unit config [] u).temps) steps

/-- How many numbers units take. -/
def runTemps : List (Config × Java.CompilationUnit) → Nat
  | [] => 0
  | (config, u) :: steps => (Conversion.unit config [] u).temps + runTemps steps

theorem apart_eq_bytes (k : Nat) (steps : List (Config × Java.CompilationUnit)) :
    apart k steps = Piece.bytes 0 true (erase (runTokens k steps)) := by
  induction steps generalizing k with
  | nil => rfl
  | cons s steps ih =>
    obtain ⟨config, u⟩ := s
    have hnested := (Conversion.unit config [] u).nested_pieces k
    have hends := (Conversion.unit config [] u).endsLine_pieces k
    rw [apart, held_writeUnit_numberedFrom, runTokens, Token.erase_append,
      Ceylon.Source.erase_tokens, Piece.bytes_append, hnested.foldl_moved hends, ih]
    rfl

/-- What a run without failure writes is the text of its tokens. -/
theorem held_writeAll_eq_tokens {residue : Residue} {target : Target}
    {steps : List (Config × Java.CompilationUnit)}
    (h : ∀ failed ∈ ((onto target).writeAll residue steps).2, failed = none) :
    ((onto target).writeAll residue steps).1.held =
      target.held ++ Piece.bytes 0 true (erase (runTokens 0 steps)) := by
  rw [← apart_eq_bytes]
  exact held_writeAll_eq_apart rfl rfl rfl h

/-- What gets through to a target with a limit is a front part of it. -/
theorem held_writeAll_limited (residue : Residue) (steps : List (Config × Java.CompilationUnit))
    (n : Nat) (refusal : Refusal) (flushFails : Bool) :
    ((onto ⟨.empty, some n, refusal, flushFails⟩).writeAll residue steps).1.held =
      (Piece.bytes 0 true (erase (runTokens 0 steps))).extract 0 n := by
  have htracks := ((tracks_onto n refusal flushFails).writeAll residue steps).target
  rw [held_writeAll_eq_tokens (writeAll_unlimited rfl)] at htracks
  rw [held, htracks]
  simp [Target.unlimited]

/-! ## The ledger of a run -/

theorem orderly_runTokens (k : Nat) (steps : List (Config × Java.CompilationUnit)) :
    Token.Orderly (fun _ => True) k (runTokens k steps) (k + runTemps steps) := by
  induction steps generalizing k with
  | nil => exact Token.orderly_nil k
  | cons s steps ih =>
    obtain ⟨config, u⟩ := s
    have hunit := Conversion.orderly_unit (Conversion.admits_anything config) (u := u) (by simp) k
    rw [runTokens, runTemps, ← Nat.add_assoc]
    exact hunit.append (ih _)

/-- Along any run the numbers are taken one after another, each by one update. No name is bound twice,
and a temporary is bound in its own update and used in it after that. -/
theorem temporaries_in_order (residue : Residue) (steps : List (Config × Java.CompilationUnit)) :
    let es := events (runTokens 0 steps)
    let written := Piece.bytes 0 true (erase (runTokens 0 steps))
    (∀ target, (∀ failed ∈ ((onto target).writeAll residue steps).2, failed = none) →
      ((onto target).writeAll residue steps).1.held = target.held ++ written) ∧
    (∀ n refusal flushFails,
      ((onto ⟨.empty, some n, refusal, flushFails⟩).writeAll residue steps).1.held =
        written.extract 0 n) ∧
    openings es = List.range (runTemps steps) ∧
    ((bindings es).map TempRef.name).Nodup ∧
    (∀ n, (∃ role, (role, n) ∈ bindings es) ↔ n < runTemps steps) ∧
    (∀ before role n after, es = before ++ .binds role n :: after →
      (pending [] before).head? = some n) ∧
    (∀ before role n after, es = before ++ .uses role n :: after →
      (pending [] before).head? = some n ∧ .binds role n ∈ before) ∧
    pending [] es = [] := by
  intro es written
  have htakes := (orderly_runTokens 0 steps).1
  rw [Nat.zero_add] at htakes
  obtain ⟨more, -, hrun⟩ := htakes.run [] [] nofun
  have hfollows := Ledger.run_follows hrun
  have hbound : more = bindings es := hfollows.bound
  refine ⟨fun target h => held_writeAll_eq_tokens h, held_writeAll_limited residue steps, ?_, ?_, ?_, ?_, ?_,
    htakes.pending_eq_nil⟩
  · rw [hfollows.numbers, List.range_eq_range']
    rfl
  · rw [← hbound]
    refine List.pairwise_map.mpr ((hfollows.nodup List.nodup_nil).imp ?_)
    exact fun hne hname => hne (TempRef.name_injective hname)
  · intro n
    rw [htakes.mem_bindings]
    simp
  · intro before role n after hes
    rw [show events (runTokens 0 steps) = _ from hes] at hrun
    exact Ledger.innermost_of_binds hrun
  · intro before role n after hes
    rw [show events (runTokens 0 steps) = _ from hes] at hrun
    exact Ledger.innermost_of_uses hrun

/-- `for (;; f()[0] += (g()[h()] += 1)) continue;` and, in a second unit, `f()[0] += 1;`. The update of
the loop is written before the `continue` and at the end of the body, each time with numbers of its own.
The array of the outer update is bound before the inner update is written, and used after it. -/
theorem temporaries_in_order_repeated :
    let call := fun name => Java.Expr.call none [] name []
    let one : Java.Expr := .literal (.number "1")
    let inner : Java.Expr := .assign (.index (call "g") (call "h")) (.compound .add) one
    let outer := fun value => Java.Expr.assign (.index (call "f") one) (.compound .add) value
    let unit := fun s => (⟨none, [],
      [.ofClass ⟨[], "C", [], none, [], [.initializer [s]]⟩]⟩ : Java.CompilationUnit)
    let steps := [(Config.default, unit (.forLoop none none [outer (.paren inner)] (.continueTo none))),
      (Config.default, unit (.expr (outer one)))]
    let es := events (runTokens 0 steps)
    let update := fun n => [TempEvent.opens n, .binds .array n, .uses .array n, .uses .array n,
      .opens (n + 1), .binds .array (n + 1), .binds .index (n + 1), .uses .array (n + 1),
      .uses .index (n + 1), .uses .array (n + 1), .uses .index (n + 1), .closes (n + 1), .closes n]
    es = update 0 ++ update 2 ++ [.opens 4, .binds .array 4, .uses .array 4, .uses .array 4, .closes 4] ∧
      openings es = List.range 5 ∧ ((bindings es).map TempRef.name).Nodup := by
  intro call one inner outer unit steps es update
  obtain ⟨-, -, hopenings, hnames, -⟩ := temporaries_in_order ownResidue steps
  have htemps : runTemps steps = 5 := by decide +kernel
  rw [htemps] at hopenings
  exact ⟨by decide +kernel, hopenings, hnames⟩

end Writer

end CeylonFromJava.Output
