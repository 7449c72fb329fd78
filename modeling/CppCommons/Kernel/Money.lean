import CppCommons.Cxx.SignedArithmetic

/-!
# Money

An amount in cents, a 64-bit integer, with a currency code.  The arithmetic is
guarded by `check_no_overflow`, whose own bounds are computed in the same type;
the amounts are evaluated step by step, so that every signed operation on the
way is seen.
-/

namespace CppCommons
namespace Kernel

open Cxx

structure DomainError where
  message : String
deriving DecidableEq

/-- The three characters; the terminating zero is not compared or printed. -/
structure CurrencyCode where
  first : UInt8
  second : UInt8
  third : UInt8
deriving DecidableEq

namespace CurrencyCode

/-- The constructor, which throws `std::invalid_argument`. -/
def make (sv : Bytes) : Except String CurrencyCode :=
  match sv with
  | [first, second, third] => .ok ⟨first, second, third⟩
  | _ => .error "CurrencyCode must be 3 characters"

def view (c : CurrencyCode) : Bytes :=
  [c.first, c.second, c.third]

end CurrencyCode

structure Money where
  cents : Int64
  currency : CurrencyCode
deriving DecidableEq

namespace Money

def checkSameCurrency (m o : Money) : Evaluation DomainError Unit :=
  if m.currency ≠ o.currency then
    .throws { message := "Cannot operate on Money with different currencies" }
  else .returns ()

/-- A bound is computed only behind the test of the sign of `b`. -/
def checkNoOverflow (a b : Int64) : Evaluation DomainError Unit := do
  if b > 0 then
    let bound <- sub64 Int64.maxValue b
    if a > bound then
      .throws { message := "Money arithmetic overflow" }
  if b < 0 then
    let bound <- sub64 Int64.minValue b
    if a < bound then
      .throws { message := "Money arithmetic overflow" }

def add (m o : Money) : Evaluation DomainError Money := do
  m.checkSameCurrency o
  checkNoOverflow m.cents o.cents
  let cents <- add64 m.cents o.cents
  return { cents := cents, currency := m.currency }

def subtract (m o : Money) : Evaluation DomainError Money := do
  m.checkSameCurrency o
  let negated <- neg64 o.cents
  checkNoOverflow m.cents negated
  let cents <- sub64 m.cents o.cents
  return { cents := cents, currency := m.currency }

/-- The sign is printed only with the whole part. -/
def toString (m : Money) : Bytes :=
  m.currency.view ++ ascii " " ++ decimal (m.cents.toInt.tdiv 100) ++ ascii "." ++
    zeroPadded 2 (m.cents.toInt.tmod 100).natAbs

/-!
## The guard

The bounds are computed without overflow on either side, so the guard lets exactly
the sums pass that can be represented.
-/

theorem checkNoOverflow_eq (a b : Int64) :
    checkNoOverflow a b =
      if fitsInt64 (a.toInt + b.toInt) then .returns ()
      else .throws { message := "Money arithmetic overflow" } := by
  have hb := b.le_toInt
  have hb' := b.toInt_lt
  have ha := a.le_toInt
  have ha' := a.toInt_lt
  have hzero : (0 : Int64).toInt = 0 := rfl
  unfold checkNoOverflow
  simp only [gt_iff_lt, Int64.lt_iff_toInt_lt, hzero, fitsInt64_iff, sub64, Evaluation.pure_eq]
  rcases lt_trichotomy b.toInt 0 with hneg | hnone | hpos
  · -- Only the lower bound is computed, and it lies between `min()` and zero.
    have hfits : fitsInt64 (Int64.minValue.toInt - b.toInt) = true := by
      rw [fitsInt64_iff, Int64.toInt_minValue]
      lia
    rw [signed64_of_fits hfits, Evaluation.returns_bind, toInt_ofInt_of_fits hfits,
      Int64.toInt_minValue]
    simp only [hneg, not_lt.mpr hneg.le, if_true, if_false]
    split_ifs <;> first | rfl | lia
  · simp only [hnone, lt_irrefl, if_false, add_zero]
    rw [if_pos ⟨ha, ha'⟩]
  · have hfits : fitsInt64 (Int64.maxValue.toInt - b.toInt) = true := by
      rw [fitsInt64_iff, Int64.toInt_maxValue]
      lia
    rw [signed64_of_fits hfits, Evaluation.returns_bind, toInt_ofInt_of_fits hfits,
      Int64.toInt_maxValue]
    simp only [hpos, not_lt.mpr hpos.le, if_true, if_false]
    split_ifs <;> first | rfl | lia

/-!
## Addition

A sum of two amounts is exact, or a `DomainError` for different currencies or an
overflow.
-/

theorem add_of_ne {m o : Money} (h : m.currency ≠ o.currency) :
    m.add o =
      .throws { message := "Cannot operate on Money with different currencies" } := by
  rw [add, checkSameCurrency, if_pos h, Evaluation.throws_bind]

theorem add_of_fits {m o : Money} (h : m.currency = o.currency)
    (hfits : fitsInt64 (m.cents.toInt + o.cents.toInt) = true) :
    m.add o = .returns { m with cents := Int64.ofInt (m.cents.toInt + o.cents.toInt) } := by
  rw [add, checkSameCurrency, if_neg (not_not_intro h), checkNoOverflow_eq, if_pos hfits, add64,
    signed64_of_fits hfits]
  rfl

theorem add_of_not_fits {m o : Money} (h : m.currency = o.currency)
    (hfits : fitsInt64 (m.cents.toInt + o.cents.toInt) ≠ true) :
    m.add o = .throws { message := "Money arithmetic overflow" } := by
  rw [add, checkSameCurrency, if_neg (not_not_intro h), checkNoOverflow_eq, if_neg hfits,
    Evaluation.returns_bind, Evaluation.throws_bind]

theorem add_ne_undefined (m o : Money) : m.add o ≠ .undefined := by
  by_cases hcurrency : m.currency = o.currency
  · by_cases hfits : fitsInt64 (m.cents.toInt + o.cents.toInt) = true
    · simp [add_of_fits hcurrency hfits]
    · simp [add_of_not_fits hcurrency hfits]
  · simp [add_of_ne hcurrency]

/-!
## Sums

`operator+` folded over a list from the left.  It is exact as long as every partial
sum can be represented.
-/

/-- `operator+` folded over the list from the left. -/
def sum (first : Money) (rest : List Money) : Evaluation DomainError Money :=
  rest.foldlM add first

def total (first : Money) (rest : List Money) : Int :=
  first.cents.toInt + (rest.map (fun m => m.cents.toInt)).sum

/-- The sum and all sums on the way to it can be represented. -/
def PartialSumsFit (first : Money) (rest : List Money) : Prop :=
  forall before, before <+: rest -> fitsInt64 (total first before) = true

theorem total_cons {first next : Money} (rest : List Money)
    (hfits : fitsInt64 (first.cents.toInt + next.cents.toInt) = true) :
    total first (next :: rest) =
      total { first with cents := Int64.ofInt (first.cents.toInt + next.cents.toInt) } rest := by
  simp only [total, List.map_cons, List.sum_cons, toInt_ofInt_of_fits hfits]
  exact (Int.add_assoc _ _ _).symm

theorem partialSumsFit_nil (first : Money) : PartialSumsFit first [] := by
  intro before hbefore
  rw [List.prefix_nil.mp hbefore]
  simpa [total] using (fitsInt64_iff _).mpr ⟨first.cents.le_toInt, first.cents.toInt_lt⟩

theorem partialSumsFit_cons_iff (first next : Money) (rest : List Money) :
    PartialSumsFit first (next :: rest) <->
      fitsInt64 (first.cents.toInt + next.cents.toInt) = true ∧
        PartialSumsFit
          { first with cents := Int64.ofInt (first.cents.toInt + next.cents.toInt) } rest := by
  constructor
  · intro h
    have hnext : fitsInt64 (first.cents.toInt + next.cents.toInt) = true := by
      simpa [total] using h [next] (List.prefix_append [next] rest)
    refine ⟨hnext, ?_⟩
    intro before hbefore
    rw [← total_cons before hnext]
    exact h (next :: before) (List.cons_prefix_cons.mpr ⟨rfl, hbefore⟩)
  · intro h before hbefore
    cases before with
    | nil => exact partialSumsFit_nil first [] List.nil_prefix
    | cons m before =>
        rcases List.cons_prefix_cons.mp hbefore with ⟨rfl, htail⟩
        rw [total_cons before h.left]
        exact h.right before htail

theorem sum_of_partialSumsFit {first : Money} {rest : List Money} (h : PartialSumsFit first rest)
    (hcurrency : forall m, m ∈ rest -> m.currency = first.currency) :
    exists s, sum first rest = .returns s ∧ s.cents.toInt = total first rest ∧
      s.currency = first.currency := by
  induction rest generalizing first with
  | nil => exact ⟨first, rfl, by simp [total], rfl⟩
  | cons next rest ih =>
      rcases (partialSumsFit_cons_iff first next rest).mp h with ⟨hnext, htail⟩
      have hsame := hcurrency next List.mem_cons_self
      rcases ih htail (fun m hm => hcurrency m (List.mem_cons_of_mem next hm)) with
        ⟨s, hsum, hcents, hcode⟩
      refine ⟨s, ?_, ?_, hcode⟩
      · rw [sum, List.foldlM_cons, add_of_fits hsame.symm hnext]
        exact hsum
      · rw [hcents, total_cons rest hnext]

theorem exists_first_unfit {first : Money} {rest : List Money}
    (h : ¬ PartialSumsFit first rest) :
    exists before next after, rest = before ++ next :: after ∧ PartialSumsFit first before ∧
      fitsInt64 (total first (before ++ [next])) ≠ true := by
  induction rest generalizing first with
  | nil => exact absurd (partialSumsFit_nil first) h
  | cons next rest ih =>
      by_cases hnext : fitsInt64 (first.cents.toInt + next.cents.toInt) = true
      · have htail := fun hrest => h ((partialSumsFit_cons_iff first next rest).mpr ⟨hnext, hrest⟩)
        rcases ih htail with ⟨before, bad, after, hsplit, hbefore, hbad⟩
        refine ⟨next :: before, bad, after, by rw [hsplit]; rfl, ?_, ?_⟩
        · exact (partialSumsFit_cons_iff first next before).mpr ⟨hnext, hbefore⟩
        · rw [List.cons_append, total_cons _ hnext]
          exact hbad
      · refine ⟨[], next, rest, rfl, partialSumsFit_nil first, ?_⟩
        simpa [total] using hnext

theorem sum_of_first_unfit {first next : Money} {before after : List Money}
    (hbefore : PartialSumsFit first before)
    (hnext : fitsInt64 (total first (before ++ [next])) ≠ true)
    (hcurrency : forall m, m ∈ before ++ next :: after -> m.currency = first.currency) :
    exists s e, sum first before = .returns s ∧ s.cents.toInt = total first before ∧
      s.add next = .throws e ∧ sum first (before ++ next :: after) = .throws e := by
  have hfront : forall m, m ∈ before -> m.currency = first.currency :=
    fun m hm => hcurrency m (List.mem_append_left _ hm)
  rcases sum_of_partialSumsFit hbefore hfront with ⟨s, hsum, hcents, hcode⟩
  have hsame : s.currency = next.currency := by
    rw [hcode]
    exact (hcurrency next (by simp)).symm
  have htotal : total first (before ++ [next]) = s.cents.toInt + next.cents.toInt := by
    rw [hcents]
    simp [total, Int.add_assoc]
  rw [htotal] at hnext
  have hadd := add_of_not_fits hsame hnext
  have hfold : before.foldlM add first = .returns s := hsum
  refine ⟨s, _, hsum, hcents, hadd, ?_⟩
  rw [sum, List.foldlM_append, hfold, Evaluation.returns_bind, List.foldlM_cons, hadd,
    Evaluation.throws_bind]

/--
The sum of a list of one currency is exact when all partial sums can be
represented, and otherwise stops with a `DomainError` at the first one that
cannot.  No signed operation overflows for any operands.
-/
theorem sum_exact (first : Money) (rest : List Money)
    (hcurrency : forall m, m ∈ rest -> m.currency = first.currency) :
    (PartialSumsFit first rest ->
      exists s, sum first rest = .returns s ∧ s.cents.toInt = total first rest ∧
        s.currency = first.currency) ∧
      (¬ PartialSumsFit first rest ->
        exists before next after s e, rest = before ++ next :: after ∧
          PartialSumsFit first before ∧ fitsInt64 (total first (before ++ [next])) ≠ true ∧
          sum first before = .returns s ∧ s.cents.toInt = total first before ∧
          s.add next = .throws e ∧ sum first rest = .throws e) ∧
      (forall m o : Money, m.add o ≠ .undefined) ∧
      forall a b : Int64, checkNoOverflow a b ≠ .undefined := by
  refine ⟨fun h => sum_of_partialSumsFit h hcurrency, ?_, add_ne_undefined, ?_⟩
  · intro h
    rcases exists_first_unfit h with ⟨before, next, after, hsplit, hbefore, hnext⟩
    rw [hsplit] at hcurrency ⊢
    rcases sum_of_first_unfit hbefore hnext hcurrency with ⟨s, e, hsum, hcents, hadd, hthrown⟩
    exact ⟨before, next, after, s, e, rfl, hbefore, hnext, hsum, hcents, hadd, hthrown⟩
  · intro a b
    rw [checkNoOverflow_eq]
    split <;> simp

def usd : CurrencyCode := ⟨85, 83, 68⟩

theorem sum_stops_at_overflow :
    exists e, sum ⟨Int64.maxValue, usd⟩ [⟨1, usd⟩, ⟨-1, usd⟩] = .throws e := by
  have hone : forall m, m ∈ [(⟨1, usd⟩ : Money), ⟨-1, usd⟩] -> m.currency = usd := by
    simp
  have hunfit : ¬ PartialSumsFit ⟨Int64.maxValue, usd⟩ [⟨1, usd⟩, ⟨-1, usd⟩] := by
    intro h
    exact absurd (h [⟨1, usd⟩] (by simp)) (by decide)
  rcases (sum_exact ⟨Int64.maxValue, usd⟩ _ hone).right.left hunfit with
    ⟨_, _, _, _, e, _, _, _, _, _, _, hthrown⟩
  exact ⟨e, hthrown⟩

/-!
## Subtraction

`operator-` negates its operand before the guard looks at it, which is undefined for
the smallest amount.
-/

theorem subtract_of_ne {m o : Money} (h : m.currency ≠ o.currency) :
    m.subtract o =
      .throws { message := "Cannot operate on Money with different currencies" } := by
  rw [subtract, checkSameCurrency, if_pos h, Evaluation.throws_bind]

theorem fitsInt64_neg_iff (a : Int64) : fitsInt64 (-a.toInt) = true <-> a ≠ Int64.minValue := by
  have hlow := a.le_toInt
  have hhigh := a.toInt_lt
  rw [fitsInt64_iff, ne_eq, ← Int64.toInt_inj, Int64.toInt_minValue]
  lia

theorem subtract_of_ne_min {m o : Money} (h : m.currency = o.currency)
    (hmin : o.cents ≠ Int64.minValue) :
    m.subtract o =
      if fitsInt64 (m.cents.toInt - o.cents.toInt) then
        .returns { m with cents := Int64.ofInt (m.cents.toInt - o.cents.toInt) }
      else .throws { message := "Money arithmetic overflow" } := by
  have hneg := (fitsInt64_neg_iff o.cents).mpr hmin
  rw [subtract, checkSameCurrency, if_neg (not_not_intro h), neg64, signed64_of_fits hneg,
    Evaluation.returns_bind, Evaluation.returns_bind, checkNoOverflow_eq,
    toInt_ofInt_of_fits hneg, ← Int.sub_eq_add_neg]
  by_cases hfits : fitsInt64 (m.cents.toInt - o.cents.toInt) = true
  · rw [if_pos hfits, if_pos hfits, sub64, signed64_of_fits hfits]
    rfl
  · rw [if_neg hfits, if_neg hfits, Evaluation.throws_bind]

theorem subtract_of_min {m o : Money} (h : m.currency = o.currency)
    (hmin : o.cents = Int64.minValue) : m.subtract o = .undefined := by
  have hneg : fitsInt64 (-o.cents.toInt) ≠ true := fun hfits =>
    (fitsInt64_neg_iff o.cents).mp hfits hmin
  rw [subtract, checkSameCurrency, if_neg (not_not_intro h), neg64, signed64_of_not_fits hneg,
    Evaluation.returns_bind, Evaluation.undefined_bind]

/-- What a subtraction should give: the exact difference, or a `DomainError`. -/
def RightDifference (m o : Money) (result : Evaluation DomainError Money) : Prop :=
  if m.currency = o.currency ∧ fitsInt64 (m.cents.toInt - o.cents.toInt) = true then
    exists d, result = .returns d ∧ d.cents.toInt = m.cents.toInt - o.cents.toInt ∧
      d.currency = m.currency
  else exists e, result = .throws e

/--
The difference is right unless the smallest amount is subtracted from one of the
same currency: its negation overflows.
-/
theorem subtract_right_iff (m o : Money) :
    RightDifference m o (m.subtract o) <->
      m.currency ≠ o.currency ∨ o.cents ≠ Int64.minValue := by
  unfold RightDifference
  by_cases hcurrency : m.currency = o.currency
  · by_cases hmin : o.cents = Int64.minValue
    · simp [subtract_of_min hcurrency hmin, hcurrency, hmin]
    · rw [subtract_of_ne_min hcurrency hmin]
      by_cases hfits : fitsInt64 (m.cents.toInt - o.cents.toInt) = true
      · rw [if_pos ⟨hcurrency, hfits⟩, if_pos hfits]
        exact iff_of_true ⟨_, rfl, toInt_ofInt_of_fits hfits, rfl⟩ (Or.inr hmin)
      · simp [hcurrency, hmin, hfits]
  · simp [subtract_of_ne hcurrency, hcurrency]

theorem smallest_subtracted_undefined :
    ¬ RightDifference ⟨-1, usd⟩ ⟨Int64.minValue, usd⟩
        (subtract ⟨-1, usd⟩ ⟨Int64.minValue, usd⟩) ∧
      subtract ⟨-1, usd⟩ ⟨Int64.minValue, usd⟩ = .undefined ∧
      (-1 : Int) - Int64.minValue.toInt = Int64.maxValue.toInt := by
  have hundefined : subtract ⟨-1, usd⟩ ⟨Int64.minValue, usd⟩ = .undefined :=
    subtract_of_min rfl rfl
  refine ⟨?_, hundefined, by decide⟩
  rw [hundefined, RightDifference]
  split <;> simp

/-!
## Printing

The whole part and the cents are printed apart and only the whole part has a sign,
so opposite amounts below one unit look alike.
-/

/-- What the digits behind the currency denote. -/
def printedAmount (m : Money) : Rat :=
  fixedPointValue (m.toString.drop 4)

theorem length_fraction (n : Int) : (zeroPadded 2 (n.tmod 100).natAbs).length = 2 := by
  apply length_zeroPadded
  have hlt : (n.tmod 100).natAbs < 100 := by lia
  generalize (n.tmod 100).natAbs = r at hlt
  by_cases hsmall : r < 10
  · simp [decimalDigits_of_lt hsmall]
  · rw [decimalDigits_of_le (Nat.not_lt.mp hsmall), decimalDigits_of_lt (by lia)]
    simp

theorem drop_toString (m : Money) :
    m.toString.drop 4 =
      decimal (m.cents.toInt.tdiv 100) ++ 46 :: zeroPadded 2 (m.cents.toInt.tmod 100).natAbs := by
  simp [toString, CurrencyCode.view, ascii]

theorem printedAmount_eq (m : Money) :
    m.printedAmount =
      ((if m.cents.toInt <= -100 then m.cents.toInt else m.cents.toInt.natAbs : Int) : Rat) /
        100 := by
  rw [printedAmount, drop_toString, fixedPointValue_decimal, decimalValue_zeroPadded,
    length_fraction]
  generalize m.cents.toInt = n
  have hsplit : n.natAbs = 100 * (n.tdiv 100).natAbs + (n.tmod 100).natAbs := by lia
  have hsign : n.tdiv 100 < 0 <-> n <= -100 := by lia
  have hwhole : ((n.tdiv 100).natAbs : Rat) + (((n.tmod 100).natAbs : Int) : Rat) / 10 ^ 2 =
      ((n.natAbs : Int) : Rat) / 100 := by
    rw [hsplit]
    generalize (n.tdiv 100).natAbs = q
    generalize (n.tmod 100).natAbs = r
    push_cast
    ring
  rw [hwhole]
  simp only [hsign]
  split_ifs with hlow
  · have hopposite : (n.natAbs : Int) = -n := by lia
    rw [hopposite, Int.cast_neg]
    ring
  · rw [one_mul]

theorem view_of_toString_eq {m n : Money} (h : m.toString = n.toString) :
    m.currency = n.currency := by
  have hview := congrArg (List.take 3) h
  simp only [toString, CurrencyCode.view, List.append_assoc, List.cons_append, List.nil_append,
    List.take_succ_cons, List.take_zero, List.cons.injEq, and_true] at hview
  cases hm : m.currency with
  | mk a b c =>
      cases hn : n.currency with
      | mk a' b' c' => simp_all

/-- The two are printed alike, without being equal. -/
def Mirrored (m n : Money) : Prop :=
  m.currency = n.currency ∧ m.cents.toInt = -n.cents.toInt ∧ m.cents.toInt ≠ 0 ∧
    m.cents.toInt.natAbs < 100

theorem toString_of_mirrored {m n : Money} (h : Mirrored m n) : m.toString = n.toString := by
  rcases h with ⟨hcurrency, hcents, _, hsmall⟩
  have hm : m.cents.toInt.tdiv 100 = 0 := by lia
  have hn : n.cents.toInt.tdiv 100 = 0 := by lia
  have hfraction : (m.cents.toInt.tmod 100).natAbs = (n.cents.toInt.tmod 100).natAbs := by lia
  rw [toString, toString, hm, hn, hfraction, hcurrency]

theorem eq_or_mirrored_of_toString_eq {m n : Money} (h : m.toString = n.toString) :
    m = n ∨ Mirrored m n := by
  have hcurrency := view_of_toString_eq h
  have hamount : m.printedAmount = n.printedAmount := by
    rw [printedAmount, h, printedAmount]
  rw [printedAmount_eq, printedAmount_eq, div_left_inj' (by norm_num), Int.cast_inj] at hamount
  by_cases hcents : m.cents.toInt = n.cents.toInt
  · left
    cases m
    cases n
    simp_all [Int64.toInt_inj]
  · right
    refine ⟨hcurrency, ?_⟩
    split_ifs at hamount <;> lia

/--
Two amounts that are printed alike are equal unless they are opposite and below
one unit; and the printed number is the amount unless it lies strictly between
minus one unit and zero.
-/
theorem toString_injective_iff (m n : Money) :
    ((m.toString = n.toString -> m.cents = n.cents ∧ m.currency = n.currency) <->
        ¬ Mirrored m n) ∧
      (m.printedAmount = (m.cents.toInt : Rat) / 100 <->
        ¬ (-100 < m.cents.toInt ∧ m.cents.toInt < 0)) := by
  constructor
  · constructor
    · intro hinjective hmirrored
      have hcents := (hinjective (toString_of_mirrored hmirrored)).left
      rcases hmirrored with ⟨_, hopposite, hnonzero, _⟩
      rw [hcents] at hopposite hnonzero
      lia
    · intro hmirrored hprinted
      rcases eq_or_mirrored_of_toString_eq hprinted with heq | hbad
      · rw [heq]
        exact ⟨rfl, rfl⟩
      · exact absurd hbad hmirrored
  · rw [printedAmount_eq, div_left_inj' (by norm_num), Int.cast_inj]
    split_ifs <;> lia

theorem smallDebt_printed_alike :
    toString ⟨-5, usd⟩ = toString ⟨5, usd⟩ ∧ (⟨-5, usd⟩ : Money) ≠ ⟨5, usd⟩ ∧
      toString ⟨-5, usd⟩ = ascii "USD 0.05" := by
  decide

end Money
end Kernel
end CppCommons
