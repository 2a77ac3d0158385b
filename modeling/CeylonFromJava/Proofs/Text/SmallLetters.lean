import CeylonFromJava.Text.Lowercase
import CeylonFromJava.Text.SmallForm

/-! A small letter is its own small form.

Both are tables of runs. A run of small letters and a run of letters with another small form are apart
if one ends before the other starts, or if both go by every second letter and not by the same ones. A
run of one letter goes by any step. -/
namespace CeylonFromJava.Text
set_option autoImplicit false
set_option maxRecDepth 100000

/-- No code point of the run is in the run of `f`, by the ends or by the steps. -/
def Run.apart (r : Run) (f : SmallForm) : Bool :=
  Nat.blt f.last r.first || (Nat.beq r.step 2 && (Nat.beq f.step 2 || Nat.beq f.first f.last) &&
    Nat.beq ((r.first + f.first) % 2) 1)

/-- No code point of the run is looked up in the table. -/
def Run.clear (r : Run) : List SmallForm → Bool
  | [] => true
  | f :: fs => Nat.blt r.last f.first || (r.apart f && r.clear fs)

theorem Run.not_mem_of_apart {r : Run} {f : SmallForm} (h : r.apart f = true) {n : Nat}
    (hr : r.contains n = true) (hge : f.first ≤ n) :
    (n ≤ f.last && (n - f.first) % f.step == 0) = false := by
  simp only [Run.apart, Run.contains, Bool.or_eq_true, Bool.and_eq_true, Nat.blt_eq, Nat.beq_eq,
    decide_eq_true_eq, beq_iff_eq] at h hr
  rw [Bool.eq_false_iff]
  intro hf
  simp only [Bool.and_eq_true, decide_eq_true_eq, beq_iff_eq] at hf
  rcases h with h | ⟨⟨hrs, hfs | hsingle⟩, hodd⟩
  · omega
  · rw [hrs] at hr
    rw [hfs] at hf
    omega
  · rw [hrs] at hr
    omega

theorem Run.smallFormIn_eq {r : Run} {n : Nat} (hr : r.contains n = true) {fs : List SmallForm}
    (h : r.clear fs = true) : smallFormIn fs n = n := by
  induction fs with
  | nil => rfl
  | cons f fs ih =>
    rw [smallFormIn]
    by_cases hlt : n < f.first
    · rw [if_pos hlt]
    · have hle : n ≤ r.last := by
        simp only [Run.contains, Bool.and_eq_true, decide_eq_true_eq] at hr
        exact hr.1.2
      rw [Run.clear, Bool.or_eq_true, Bool.and_eq_true, Nat.blt_eq] at h
      rcases h with hbefore | ⟨hf, hfs⟩
      · omega
      · rw [if_neg hlt, Run.not_mem_of_apart hf hr (Nat.not_lt.mp hlt)]
        exact ih hfs

theorem exists_contains_of_covers {rs : List Run} {n : Nat} (h : Run.covers rs n = true) :
    ∃ r ∈ rs, r.contains n = true := by
  fun_induction Run.covers rs n with
  | case1 => cases h
  | case2 => cases h
  | case3 r rs n _ ih =>
    rcases (Bool.or_eq_true _ _).mp h with hr | hrs
    · exact ⟨r, List.mem_cons_self .., hr⟩
    · obtain ⟨r', hmem, hr'⟩ := ih hrs
      exact ⟨r', List.mem_cons_of_mem _ hmem, hr'⟩

theorem clear_lowercaseRuns : (lowercaseRuns.all fun r => r.clear smallForms) = true := by
  decide +kernel

theorem smallFormIn_of_lowercase {n : Nat} (h : Run.covers lowercaseRuns n = true) :
    smallFormIn smallForms n = n := by
  obtain ⟨r, hr, hn⟩ := exists_contains_of_covers h
  exact Run.smallFormIn_eq hn (List.all_eq_true.mp clear_lowercaseRuns r hr)

theorem toLowercase_of_isLowercase {c : Char} (h : isLowercase c = true) : toLowercase c = [c] := by
  rw [isLowercase] at h
  rw [toLowercase]
  by_cases hascii : c.toNat < 0x80
  · rw [if_pos hascii] at h ⊢
    have hcapital : ¬ (c.val ≥ 'A'.val ∧ c.val ≤ 'Z'.val) := by
      rintro ⟨-, hle⟩
      have hge : 97 ≤ c.val := (of_decide_eq_true ((Bool.and_eq_true _ _).mp h).1)
      exact absurd (UInt32.le_trans hge hle) (by decide)
    have hlower : c.toLower = c := dif_neg hcapital
    rw [hlower]
  · rw [if_neg hascii] at h ⊢
    have hdotted : c.toNat ≠ 0x130 := by
      intro heq
      rw [heq] at h
      exact absurd h (by decide +kernel)
    rw [if_neg hdotted, smallFormIn_of_lowercase h, Char.ofNat_toNat]

end CeylonFromJava.Text
