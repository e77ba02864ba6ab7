import ResourceGraph.Text.Digit
import ResourceGraph.Text.Lower

/-!
Capitals and small letters. Lower-casing settles every character: what it gives has no small form
besides itself, whatever stands around it, so that lower-casing twice is lower-casing once. It
leaves no ASCII capital, and of the marks and digits that come before the small letters it gives
none that was not there.
-/

namespace ResourceGraph.Text

/-! ## ASCII letters -/

section Ascii
variable {c : Char}

theorem isCapital_iff : isCapital c = true ↔ 65 ≤ c.toNat ∧ c.toNat ≤ 90 := by
  simp [isCapital, Char.le_def, UInt32.le_iff_toNat_le]

private theorem isSmall_iff : isSmall c = true ↔ 97 ≤ c.toNat ∧ c.toNat ≤ 122 := by
  simp [isSmall, Char.le_def, UInt32.le_iff_toNat_le]

private theorem isAsciiDigit_iff : isAsciiDigit c = true ↔ 48 ≤ c.toNat ∧ c.toNat ≤ 57 := by
  simp [isAsciiDigit, Char.le_def, UInt32.le_iff_toNat_le]

theorem isSmall_of_isCapital (capital : isCapital c = true) : isSmall c = false := by
  refine Bool.eq_false_iff.mpr fun small => ?_
  have := isCapital_iff.mp capital
  have := isSmall_iff.mp small
  omega

theorem isCapital_of_isSmall (small : isSmall c = true) : isCapital c = false := by
  refine Bool.eq_false_iff.mpr fun capital => ?_
  rw [isSmall_of_isCapital capital] at small
  cases small

theorem isDigit_of_isCapital (capital : isCapital c = true) : isDigit c = false := by
  have bounds := isCapital_iff.mp capital
  have letter : isAsciiDigit c = false := by
    refine Bool.eq_false_iff.mpr fun digit => ?_
    have := isAsciiDigit_iff.mp digit
    omega
  have ascii : c.toNat < 0x80 := by omega
  simp [isDigit, digit?, letter, ascii]

end Ascii

/-! ## The letters that runs give -/

namespace CaseRun

/-- The code point of the first letter that a run gives. -/
def low (run : CaseRun) : Nat := Int.toNat (run.first + run.offset)

/-- The code point of the last letter that a run gives. -/
def high (run : CaseRun) : Nat := Int.toNat (run.last + run.offset)

/-- A run gives characters, all of them further on than the marks and capitals of ASCII, and none of
them is the capital with a dot above. -/
def Lettered (run : CaseRun) : Prop :=
  96 < run.low ∧ (run.high < 0xd800 ∨ 0xdfff < run.low ∧ run.high < 0x110000) ∧
    (run.high < 0x130 ∨ 0x130 < run.low)

instance (run : CaseRun) : Decidable run.Lettered := inferInstanceAs (Decidable (_ ∧ _))

/-- No letter that a run gives is in another run: they lie apart, or where the other run leaves
letters out. -/
def avoids (run other : CaseRun) : Bool :=
  Nat.blt run.high other.first || Nat.blt other.last run.low ||
    (other.step == 2 && (run.step == 2 || run.first == run.last) && (run.low + other.first) % 2 == 1)

variable {run other : CaseRun} {code image : Nat}

/-- What a run gives for one of its letters. -/
theorem gives_iff : run.apply? code = some image ↔
    (run.first ≤ code ∧ code ≤ run.last ∧ (code - run.first) % run.step = 0) ∧
      Int.toNat (code + run.offset) = image := by
  unfold CaseRun.apply?
  simp [and_assoc]

/-- A run leaves the code points that it does not hold. -/
theorem leaves_iff :
    run.apply? code = none ↔
      ¬ (run.first ≤ code ∧ code ≤ run.last ∧ (code - run.first) % run.step = 0) := by
  unfold CaseRun.apply?
  simp [and_assoc]

theorem bounds_of_gives (given : run.apply? code = some image) : run.low ≤ image ∧ image ≤ run.high := by
  obtain ⟨⟨starts, ends, -⟩, rfl⟩ := gives_iff.mp given
  unfold low high
  omega

/-- What a run gives is the code point of a character. -/
theorem Lettered.toNat_ofNat (lettered : run.Lettered) (given : run.apply? code = some image) :
    (Char.ofNat image).toNat = image := by
  obtain ⟨starts, ends⟩ := bounds_of_gives given
  have valid : image.isValidChar := by
    obtain ⟨-, before | ⟨after, bound⟩, -⟩ := lettered
    · left
      omega
    · right
      omega
  unfold Char.ofNat
  rw [dif_pos valid]
  rfl

/-- What a run gives is left by every run that it avoids. -/
theorem leaves_of_avoids (avoids : run.avoids other = true) (lettered : run.Lettered)
    (given : run.apply? code = some image) : other.apply? image = none := by
  rw [leaves_iff]
  rintro ⟨starts, ends, among⟩
  obtain ⟨lowest, highest⟩ := bounds_of_gives given
  simp only [CaseRun.avoids, Bool.or_eq_true, Bool.and_eq_true, Nat.blt_eq, beq_iff_eq] at avoids
  rcases avoids with (before | after) | ⟨⟨step, even⟩, odd⟩
  · omega
  · omega
  · -- The other run has every second letter of its stretch, and what is given stands at the
    -- places between.
    obtain ⟨⟨first, last, within⟩, rfl⟩ := gives_iff.mp given
    have far := lettered.1
    unfold low at far odd
    rw [step] at among
    rcases even with two | single
    · rw [two] at within
      omega
    · omega

end CaseRun

private theorem caseRuns_lettered : ∀ run ∈ caseRuns, run.Lettered := by
  decide +kernel

/-- The letters that the runs give are in no run. -/
theorem caseRuns_avoid : ∀ run ∈ caseRuns, ∀ other ∈ caseRuns, run.avoids other = true := by
  have table : (caseRuns.all fun run => caseRuns.all run.avoids) = true := by decide +kernel
  intro run member other among
  exact List.all_eq_true.mp (List.all_eq_true.mp table run member) other among

/-- One run holds the ASCII capitals, and no other one starts in ASCII. -/
theorem caseRuns_ascii : ∀ run ∈ caseRuns, run.first = 65 ∧ run.last = 90 ∨ 0x80 ≤ run.first := by
  decide +kernel

/-! ## Settled characters -/

/-- The character has no small form besides itself. -/
def Settled (c : Char) : Prop :=
  c.toNat ≠ 0x130 ∧ (caseRuns.findSome? fun run => run.apply? c.toNat) = none

instance (c : Char) : Decidable (Settled c) := inferInstanceAs (Decidable (_ ∧ _))

variable {c d : Char} {before after cs : List Char} {s : String}

private theorem given_of_isCapital (capital : isCapital c = true) :
    ∃ run ∈ caseRuns, run.apply? c.toNat = some (c.toNat + 32) := by
  obtain ⟨first, last⟩ := isCapital_iff.mp capital
  have member : (⟨65, 90, 1, 32⟩ : CaseRun) ∈ caseRuns := List.mem_cons_self
  exact ⟨_, member, CaseRun.gives_iff.mpr ⟨⟨first, last, Nat.mod_one _⟩, rfl⟩⟩

theorem Settled.not_isCapital (settled : Settled c) : isCapital c = false := by
  refine Bool.eq_false_iff.mpr fun capital => ?_
  obtain ⟨run, member, given⟩ := given_of_isCapital capital
  rw [List.findSome?_eq_none_iff.mp settled.2 run member] at given
  cases given

theorem Settled.lowerChar (settled : Settled c) (before after : List Char) :
    lowerChar before c after = [c] := by
  have small := settled.not_isCapital
  have sigma : c.toNat ≠ 0x3a3 := by
    intro same
    have unsettled : ¬ Settled (Char.ofNat 0x3a3) := by decide +kernel
    rw [← same, Char.ofNat_toNat] at unsettled
    exact unsettled settled
  unfold isCapital at small
  simp [Text.lowerChar, small, sigma, settled.1, settled.2]

/-- What a run gives is settled. -/
theorem settled_of_given {run : CaseRun} {code image : Nat} (member : run ∈ caseRuns)
    (given : run.apply? code = some image) :
    Settled (Char.ofNat image) ∧ 96 < (Char.ofNat image).toNat := by
  have lettered := caseRuns_lettered run member
  obtain ⟨starts, ends⟩ := CaseRun.bounds_of_gives given
  rw [Settled, lettered.toNat_ofNat given]
  refine ⟨⟨?_, List.findSome?_eq_none_iff.mpr fun other among => ?_⟩, ?_⟩
  · rcases lettered.2.2 with before | after <;> omega
  · exact CaseRun.leaves_of_avoids (caseRuns_avoid run member other among) lettered given
  · exact Nat.lt_of_lt_of_le lettered.1 starts

/-- The small forms that no run gives: the two of the sigma, and those of the capital with a dot
above. -/
theorem settled_special (member : d ∈ [Char.ofNat 0x3c2, Char.ofNat 0x3c3, 'i', Char.ofNat 0x307]) :
    Settled d ∧ 96 < d.toNat := by
  simp only [List.mem_cons, List.not_mem_nil, or_false] at member
  rcases member with rfl | rfl | rfl | rfl <;> decide +kernel

/-- An ASCII character that is no capital is settled. -/
theorem settled_of_ascii (ascii : c.toNat < 0x80) (small : isCapital c = false) : Settled c := by
  refine ⟨by omega, List.findSome?_eq_none_iff.mpr fun run member => CaseRun.leaves_iff.mpr ?_⟩
  rintro ⟨starts, ends, -⟩
  rcases caseRuns_ascii run member with ⟨first, last⟩ | beyond
  · rw [isCapital_iff.mpr ⟨first ▸ starts, last ▸ ends⟩] at small
    cases small
  · omega

/-- Each character of a small form is settled. It is the character itself, or none before the small
letters. -/
theorem of_mem_lowerChar (member : d ∈ lowerChar before c after) :
    Settled d ∧ (d = c ∨ 96 < d.toNat) := by
  have new : Settled d ∧ 96 < d.toNat → Settled d ∧ (d = c ∨ 96 < d.toNat) := And.imp_right .inr
  unfold lowerChar at member
  split at member
  · next capital =>
    obtain ⟨run, there, gives⟩ := given_of_isCapital capital
    exact new (List.mem_singleton.mp member ▸ settled_of_given there gives)
  · next small =>
    split at member
    · next ascii =>
      obtain rfl := List.mem_singleton.mp member
      exact ⟨settled_of_ascii ascii (Bool.eq_false_iff.mpr small), .inl rfl⟩
    · split at member
      · refine new (settled_special ?_)
        split at member <;> simp [List.mem_singleton.mp member]
      · split at member
        · exact new (settled_special (.tail _ (.tail _ member)))
        · next plain =>
          cases found : caseRuns.findSome? fun run => run.apply? c.toNat with
          | none =>
            obtain rfl : d = c := by simpa [found] using member
            exact ⟨⟨by simpa using plain, found⟩, .inl rfl⟩
          | some image =>
            obtain ⟨run, there, gives⟩ := List.exists_of_findSome?_eq_some found
            obtain rfl : d = Char.ofNat image := by simpa [found] using member
            exact new (settled_of_given there gives)

/-! ## Texts -/

theorem of_mem_lowerFrom (member : d ∈ lowerFrom before cs) : Settled d ∧ (d ∈ cs ∨ 96 < d.toNat) := by
  induction cs generalizing before with
  | nil => cases member
  | cons c after ih =>
    rcases List.mem_append.mp member with here | further
    · obtain ⟨settled, rfl | beyond⟩ := of_mem_lowerChar here
      · exact ⟨settled, .inl List.mem_cons_self⟩
      · exact ⟨settled, .inr beyond⟩
    · exact (ih further).imp_right (Or.imp_left (List.mem_cons_of_mem c))

private theorem lowerFrom_of_settled (settled : ∀ c ∈ cs, Settled c) (before : List Char) :
    lowerFrom before cs = cs := by
  induction cs generalizing before with
  | nil => rfl
  | cons c after ih =>
    obtain ⟨here, further⟩ := List.forall_mem_cons.mp settled
    rw [lowerFrom, here.lowerChar, ih further, List.singleton_append]

theorem not_isCapital_of_mem_lower (member : d ∈ (lower s).toList) : isCapital d = false := by
  rw [lower, String.toList_ofList] at member
  exact (of_mem_lowerFrom member).1.not_isCapital

/-- A character before the small letters is in a small form only where it was before. -/
theorem mem_of_mem_lower (member : d ∈ (lower s).toList) (mark : d.toNat ≤ 96) : d ∈ s.toList := by
  rw [lower, String.toList_ofList] at member
  rcases (of_mem_lowerFrom member).2 with there | beyond
  · exact there
  · omega

/-- Lower-casing twice is lower-casing once. -/
theorem lower_lower (s : String) : lower (lower s) = lower s := by
  unfold lower
  rw [String.toList_ofList, lowerFrom_of_settled (fun c member => (of_mem_lowerFrom member).1)]

end ResourceGraph.Text
