import CppCommons.Foundation.Iteration

/-!
# Pagination

`PageRequest` and `Page` with the widths of their fields.  `offset` is a product
in 32 bits; `has_next` adds in 32 bits and multiplies in 64; `total_pages`
rounds up in 64 bits and narrows the result.
-/

namespace CppCommons
namespace Application

open Foundation

structure PageRequest where
  page : UInt32 := 0
  size : UInt32 := 20
deriving DecidableEq

def PageRequest.offset (r : PageRequest) : UInt32 :=
  r.page * r.size

structure Page (T : Type) where
  items : List T := []
  total : UInt64 := 0
  page : UInt32 := 0
  size : UInt32 := 0

namespace Page

variable {T : Type}

def hasNext (p : Page T) : Bool :=
  (p.page + 1).toUInt64 * p.size.toUInt64 < p.total

def totalPages (p : Page T) : UInt32 :=
  if p.size = 0 then 0
  else ((p.total + p.size.toUInt64 - 1) / p.size.toUInt64).toUInt32

/-!
## The two methods in natural numbers

`has_next` and `total_pages` as comparisons and quotients of natural numbers, with
the condition under which 32 bits are enough.
-/

theorem hasNext_iff (p : Page T) :
    p.hasNext = true <->
      (p.page.toNat + 1) % 2 ^ 32 * p.size.toNat < p.total.toNat := by
  have hsum : (p.page + 1).toNat = (p.page.toNat + 1) % 2 ^ 32 := by
    rw [UInt32.toNat_add]
    rfl
  have hfactor : (p.page.toNat + 1) % 2 ^ 32 <= 2 ^ 32 - 1 := by
    lia
  have hsize : p.size.toNat <= 2 ^ 32 - 1 := by
    have hlt := p.size.toNat_lt
    lia
  -- the product of two 32-bit numbers fits in 64 bits
  have hproduct : (p.page.toNat + 1) % 2 ^ 32 * p.size.toNat < 2 ^ 64 :=
    lt_of_le_of_lt (Nat.mul_le_mul hfactor hsize) (by norm_num)
  rw [hasNext, decide_eq_true_iff, UInt64.lt_iff_toNat_lt, UInt64.toNat_mul,
    UInt32.toNat_toUInt64, UInt32.toNat_toUInt64, hsum, Nat.mod_eq_of_lt hproduct]

theorem hasNext_iff_of_lt (p : Page T) (hpage : p.page.toNat + 1 < 2 ^ 32) :
    p.hasNext = true <-> (p.page.toNat + 1) * p.size.toNat < p.total.toNat := by
  rw [hasNext_iff, Nat.mod_eq_of_lt hpage]

theorem size_toNat_pos {p : Page T} (hsize : p.size ≠ 0) : 0 < p.size.toNat := by
  have hne : p.size.toNat ≠ 0 := by
    intro hzero
    exact hsize (UInt32.toNat_inj.mp hzero)
  lia

theorem size_toNat_eq_zero {p : Page T} (hsize : p.size = 0) : p.size.toNat = 0 := by
  rw [hsize]
  rfl

theorem toNat_totalPages (p : Page T) (hsize : p.size ≠ 0) :
    p.totalPages.toNat =
      (p.total.toNat + p.size.toNat - 1) % 2 ^ 64 / p.size.toNat % 2 ^ 32 := by
  have hpos := size_toNat_pos hsize
  have hsum : (p.total + p.size.toUInt64 - 1).toNat =
      (p.total.toNat + p.size.toNat - 1) % 2 ^ 64 := by
    rw [UInt64.toNat_sub, UInt64.toNat_add, UInt32.toNat_toUInt64]
    have hone : (1 : UInt64).toNat = 1 := rfl
    rw [hone]
    omega
  rw [totalPages, if_neg hsize, UInt64.toNat_toUInt32, UInt64.toNat_div, hsum,
    UInt32.toNat_toUInt64]

theorem totalPages_eq_ceilDiv_iff (p : Page T) (hsize : p.size ≠ 0) :
    p.totalPages.toNat = p.total.toNat ⌈/⌉ p.size.toNat <->
      p.total.toNat <= (2 ^ 32 - 1) * p.size.toNat := by
  have hpos := size_toNat_pos hsize
  have hceil : p.total.toNat ⌈/⌉ p.size.toNat <= 2 ^ 32 - 1 <->
      p.total.toNat <= (2 ^ 32 - 1) * p.size.toNat := by
    rw [ceilDiv_le_iff_le_mul hpos, Nat.mul_comm]
  rw [← hceil]
  constructor
  · intro h
    have hlt := p.totalPages.toNat_lt
    lia
  · intro h
    have hfits : p.total.toNat + p.size.toNat - 1 < 2 ^ 64 := by
      have hsmall := hceil.mp h
      have hlt := p.size.toNat_lt
      lia
    rw [toNat_totalPages p hsize, Nat.mod_eq_of_lt hfits, ← Nat.ceilDiv_eq_add_pred_div]
    exact Nat.mod_eq_of_lt (by lia)

def atPage (p : Page T) (page : UInt32) : Page T :=
  { p with page := page }

end Page

/-!
## The two methods against each other

Both methods find the same last page, also as the tests of a loop over the pages, as
long as the number of pages fits and the page has a successor.
-/

/-- Both methods find the same last page, also as the tests of a loop over the pages. -/
structure PagesAgree {T : Type} (p : Page T) : Prop where
  hasNext_iff : p.hasNext = true <-> p.page.toNat + 1 < p.totalPages.toNat
  totalPages_eq : p.size ≠ 0 -> p.totalPages.toNat = p.total.toNat ⌈/⌉ p.size.toNat
  visited_eq : forall bound,
    Iteration.visited (fun page => (p.atPage page).hasNext) (fun page => page + 1) bound 0 =
      Iteration.visited (fun page => page.toNat + 1 < (p.atPage page).totalPages.toNat)
        (fun page => page + 1) bound 0

section Agreement

variable {T : Type} {p : Page T}

theorem hasNext_iff_lt_totalPages (hfits : p.total.toNat <= (2 ^ 32 - 1) * p.size.toNat)
    (hpage : p.page.toNat + 1 < 2 ^ 32) :
    p.hasNext = true <-> p.page.toNat + 1 < p.totalPages.toNat := by
  rw [p.hasNext_iff_of_lt hpage]
  by_cases hsize : p.size = 0
  · have hzero := Page.size_toNat_eq_zero hsize
    rw [Page.totalPages, if_pos hsize, UInt32.toNat_zero]
    lia
  · rw [(p.totalPages_eq_ceilDiv_iff hsize).mpr hfits, ← not_iff_not, Nat.not_lt, Nat.not_lt,
      ceilDiv_le_iff_le_mul (Page.size_toNat_pos hsize), Nat.mul_comm]

theorem visited_eq_of_fits (hfits : p.total.toNat <= (2 ^ 32 - 1) * p.size.toNat) (bound : Nat) :
    Iteration.visited (fun page => (p.atPage page).hasNext) (fun page => page + 1) bound 0 =
      Iteration.visited (fun page => page.toNat + 1 < (p.atPage page).totalPages.toNat)
        (fun page => page + 1) bound 0 := by
  have hbefore : forall page : UInt32,
      page = 0 ∨ page.toNat * p.size.toNat < p.total.toNat -> page.toNat + 1 < 2 ^ 32 := by
    intro page hpage
    rcases hpage with hzero | hrows
    · rw [hzero]
      exact Nat.one_lt_two_pow (by decide)
    · by_contra hlarge
      have hlt := page.toNat_lt
      have hlast : page.toNat = 2 ^ 32 - 1 := by
        lia
      rw [hlast] at hrows
      lia
  apply Iteration.visited_congr
    (P := fun page => page = 0 ∨ page.toNat * p.size.toNat < p.total.toNat)
  · intro page hpage
    rw [Bool.eq_iff_iff, decide_eq_true_iff]
    exact @hasNext_iff_lt_totalPages T (p.atPage page) hfits (hbefore page hpage)
  · intro page hpage hmore
    have hlt := hbefore page hpage
    rw [(p.atPage page).hasNext_iff_of_lt hlt] at hmore
    right
    have hsum : (page + 1).toNat = page.toNat + 1 := by
      rw [UInt32.toNat_add]
      exact Nat.mod_eq_of_lt hlt
    rw [hsum]
    exact hmore
  · exact Or.inl rfl

/--
For every total, page size and page: the two methods agree, and the number of
pages is the quotient rounded up, if and only if that quotient has 32 bits (with
size zero, the total is zero) and the page is not the last 32-bit number of a
listing with rows.
-/
theorem pagesAgree_iff (p : Page T) :
    PagesAgree p <->
      p.total.toNat <= (2 ^ 32 - 1) * p.size.toNat ∧
        (p.page.toNat = 2 ^ 32 - 1 -> p.total.toNat = 0) := by
  have hpages := p.totalPages.toNat_lt
  constructor
  · intro h
    -- at the last 32-bit number the page after it is page zero again
    have hlast : p.page.toNat = 2 ^ 32 - 1 -> p.total.toNat = 0 := by
      intro hpage
      by_contra hrows
      have hnext : p.hasNext = true := by
        rw [p.hasNext_iff, hpage]
        lia
      have hbefore := h.hasNext_iff.mp hnext
      lia
    refine ⟨?_, hlast⟩
    by_cases hsize : p.size = 0
    · have hzero := Page.size_toNat_eq_zero hsize
      by_contra hrows
      have hnext : p.hasNext = true := by
        rw [p.hasNext_iff, hzero]
        lia
      have hbefore := h.hasNext_iff.mp hnext
      rw [Page.totalPages, if_pos hsize, UInt32.toNat_zero] at hbefore
      lia
    · exact (p.totalPages_eq_ceilDiv_iff hsize).mp (h.totalPages_eq hsize)
  · intro hparts
    rcases hparts with ⟨hfits, hlast⟩
    refine ⟨?_, ?_, visited_eq_of_fits hfits⟩
    · by_cases hpage : p.page.toNat + 1 < 2 ^ 32
      · exact hasNext_iff_lt_totalPages hfits hpage
      · have hlt := p.page.toNat_lt
        have hempty := hlast (by lia)
        rw [p.hasNext_iff, hempty]
        lia
    · intro hsize
      exact (p.totalPages_eq_ceilDiv_iff hsize).mpr hfits

end Agreement

theorem sizeZero_not_pagesAgree :
    (Page.hasNext (T := Unit) { total := 1 }) = true ∧
      (Page.totalPages (T := Unit) { total := 1 }) = 0 ∧
      ¬ PagesAgree (T := Unit) { total := 1 } := by
  refine ⟨by decide, by decide, ?_⟩
  intro h
  have hbefore := h.hasNext_iff.mp (by decide)
  exact absurd hbefore (by decide)

/-!
## Walking over all pages

Every page is fetched at the offset of its request, and the walk goes on while
there is a next page.
-/

section Walk

variable {T : Type}

/-- The page a store returns for a request; `rows` reads from an offset. -/
def fetched (rows : UInt32 -> UInt32 -> List T) (total : UInt64) (r : PageRequest) : Page T :=
  { items := rows r.offset r.size, total := total, page := r.page, size := r.size }

/-- The pages of the walk from page zero; `none` when the bound is reached before its end. -/
def walk (rows : UInt32 -> UInt32 -> List T) (total : UInt64) (size : UInt32) (bound : Nat) :
    Option (List UInt32) :=
  Iteration.visited (fun page => (fetched rows total { page := page, size := size }).hasNext)
    (fun page => page + 1) bound 0

def window (total : UInt64) (size page : UInt32) : Set Nat :=
  let offset := (PageRequest.offset { page := page, size := size }).toNat
  Set.Ico offset (min (offset + size.toNat) total.toNat)

/-- The windows of the pages follow each other, and make up all positions. -/
structure CoversOnce (total : UInt64) (size : UInt32) (pages : List UInt32) : Prop where
  disjoint : pages.Pairwise (fun p q => Disjoint (window total size p) (window total size q))
  increasing : pages.Pairwise (fun p q =>
    forall i j, i ∈ window total size p -> j ∈ window total size q -> i < j)
  covers : forall i, (exists p, p ∈ pages ∧ i ∈ window total size p) <-> i < total.toNat

/-- The walk ends, and has then seen every position once and in order. -/
def WalksOnce (rows : UInt32 -> UInt32 -> List T) (total : UInt64) (size : UInt32) : Prop :=
  exists bound pages, walk rows total size bound = some pages ∧ CoversOnce total size pages

def lastPage (total : UInt64) (size : UInt32) : Nat :=
  (total.toNat - 1) / size.toNat

variable (rows : UInt32 -> UInt32 -> List T) {total : UInt64} {size : UInt32}

theorem lastPage_mul_le : lastPage total size * size.toNat <= total.toNat - 1 :=
  Nat.div_mul_le_self _ _

theorem le_lastPage_succ_mul (hsize : 1 <= size.toNat) :
    total.toNat <= (lastPage total size + 1) * size.toNat := by
  have hlt := Nat.lt_mul_div_succ (total.toNat - 1) hsize
  rw [Nat.mul_comm] at hlt
  have hle : total.toNat - 1 + 1 <= (lastPage total size + 1) * size.toNat := hlt
  lia

theorem ofNat_add_one (k : Nat) : UInt32.ofNat k + 1 = UInt32.ofNat (k + 1) := by
  rw [UInt32.ofNat_add]
  rfl

theorem walk_eq_range (hsize : 1 <= size.toNat) (hpages : lastPage total size + 1 < 2 ^ 32) :
    walk rows total size (lastPage total size + 1) =
      some ((List.range (lastPage total size + 1)).map UInt32.ofNat) := by
  have hpage : forall k, k <= lastPage total size -> (UInt32.ofNat k).toNat = k := by
    intro k hk
    rw [UInt32.toNat_ofNat']
    exact Nat.mod_eq_of_lt (by lia)
  have hnext : forall k, k <= lastPage total size ->
      ((fetched rows total { page := UInt32.ofNat k, size := size }).hasNext = true <->
        (k + 1) * size.toNat < total.toNat) := by
    intro k hk
    have hlt : (UInt32.ofNat k).toNat + 1 < 2 ^ 32 := by
      rw [hpage k hk]
      lia
    rw [Page.hasNext_iff_of_lt _ hlt]
    change ((UInt32.ofNat k).toNat + 1) * size.toNat < total.toNat <-> _
    rw [hpage k hk]
  have hmore : forall k, k < lastPage total size ->
      (fetched rows total { page := UInt32.ofNat k, size := size }).hasNext = true := by
    intro k hk
    have hrows : (k + 1) * size.toNat <= total.toNat - 1 :=
      le_trans (Nat.mul_le_mul_right _ hk) lastPage_mul_le
    have hpos : 0 < (k + 1) * size.toNat := Nat.mul_pos (Nat.succ_pos k) hsize
    exact (hnext k (Nat.le_of_lt hk)).mpr (by lia)
  have hlast : (fetched rows total
      { page := UInt32.ofNat (lastPage total size), size := size }).hasNext = false := by
    rw [Bool.eq_false_iff, ne_eq, hnext _ (Nat.le_refl _), Nat.not_lt]
    exact le_lastPage_succ_mul hsize
  exact @Iteration.visited_of_orbit UInt32
    (fun page => (fetched rows total { page := page, size := size }).hasNext)
    (fun page => page + 1) UInt32.ofNat (lastPage total size) ofNat_add_one hmore hlast

theorem walk_eq_none (hsize : 1 <= size.toNat) (hpages : 2 ^ 32 <= lastPage total size + 1)
    (bound : Nat) : walk rows total size bound = none := by
  have hrows : (2 ^ 32 - 1) * size.toNat <= total.toNat - 1 :=
    le_trans (Nat.mul_le_mul_right _ (by lia)) lastPage_mul_le
  apply Iteration.visited_eq_none
  intro page
  rw [Page.hasNext_iff]
  change (page.toNat + 1) % 2 ^ 32 * size.toNat < total.toNat
  have hwrapped : (page.toNat + 1) % 2 ^ 32 <= 2 ^ 32 - 1 := by
    lia
  have hscaled := Nat.mul_le_mul_right size.toNat hwrapped
  lia

theorem toNat_offset (k : Nat) :
    (PageRequest.offset { page := UInt32.ofNat k, size := size }).toNat =
      k * size.toNat % 2 ^ 32 := by
  rw [PageRequest.offset, UInt32.toNat_mul, UInt32.toNat_ofNat', Nat.mod_mul_mod]

theorem mem_window_iff (k i : Nat) :
    i ∈ window total size (UInt32.ofNat k) <->
      k * size.toNat % 2 ^ 32 <= i ∧ i < k * size.toNat % 2 ^ 32 + size.toNat ∧
        i < total.toNat := by
  rw [window, toNat_offset, Set.mem_Ico, lt_min_iff]

theorem pairwise_range_map {n : Nat} {R : UInt32 -> UInt32 -> Prop}
    (h : forall k l, k < l -> l < n -> R (UInt32.ofNat k) (UInt32.ofNat l)) :
    ((List.range n).map UInt32.ofNat).Pairwise R := by
  rw [List.pairwise_map]
  apply List.Pairwise.imp_of_mem _ List.pairwise_lt_range
  intro k l _ hl hkl
  exact h k l hkl (List.mem_range.mp hl)

theorem coversOnce_range (hsize : 1 <= size.toNat)
    (hoffset : lastPage total size * size.toNat < 2 ^ 32) :
    CoversOnce total size ((List.range (lastPage total size + 1)).map UInt32.ofNat) := by
  have hmem : forall k i, k <= lastPage total size ->
      (i ∈ window total size (UInt32.ofNat k) <->
        k * size.toNat <= i ∧ i < (k + 1) * size.toNat ∧ i < total.toNat) := by
    intro k i hk
    have hfits : k * size.toNat < 2 ^ 32 :=
      lt_of_le_of_lt (Nat.mul_le_mul_right _ hk) hoffset
    rw [mem_window_iff, Nat.mod_eq_of_lt hfits, Nat.succ_mul]
  have hbefore : forall k l, k < l -> l < lastPage total size + 1 -> forall i j,
      i ∈ window total size (UInt32.ofNat k) -> j ∈ window total size (UInt32.ofNat l) ->
        i < j := by
    intro k l hkl hl i j hi hj
    rw [hmem k i (by lia)] at hi
    rw [hmem l j (by lia)] at hj
    have hnext : (k + 1) * size.toNat <= l * size.toNat := Nat.mul_le_mul_right _ hkl
    lia
  constructor
  · apply pairwise_range_map
    intro k l hkl hl
    rw [Set.disjoint_left]
    intro i hi hj
    exact absurd (hbefore k l hkl hl i i hi hj) (Nat.lt_irrefl i)
  · exact pairwise_range_map hbefore
  · intro i
    constructor
    · intro hparts
      rcases hparts with ⟨p, hp, hi⟩
      rcases List.mem_map.mp hp with ⟨k, _, rfl⟩
      exact ((mem_window_iff k i).mp hi).right.right
    · intro hi
      have hk : i / size.toNat <= lastPage total size := Nat.div_le_div_right (by lia)
      refine ⟨UInt32.ofNat (i / size.toNat),
        List.mem_map_of_mem (List.mem_range.mpr (Nat.lt_succ_of_le hk)), ?_⟩
      rw [hmem _ i hk]
      have hlt := Nat.lt_mul_div_succ i hsize
      rw [Nat.mul_comm] at hlt
      exact ⟨Nat.div_mul_le_self i _, hlt, hi⟩

theorem not_coversOnce_range (hsize : 1 <= size.toNat)
    (hoffset : 2 ^ 32 <= lastPage total size * size.toNat) :
    ¬ CoversOnce total size ((List.range (lastPage total size + 1)).map UInt32.ofNat) := by
  intro h
  have hlt := size.toNat_lt
  have hrows := @lastPage_mul_le total size
  -- `k` is the first page whose offset wraps
  let k := 2 ^ 32 ⌈/⌉ size.toNat
  have hk : k <= lastPage total size := by
    rw [ceilDiv_le_iff_le_mul hsize, Nat.mul_comm]
    exact hoffset
  have hwraps : 2 ^ 32 <= k * size.toNat := by
    rw [Nat.mul_comm, ← ceilDiv_le_iff_le_mul hsize]
  have hpos : 0 < k := by
    by_contra hzero
    rw [Nat.eq_zero_of_not_pos hzero, Nat.zero_mul] at hwraps
    lia
  have hfirst : k * size.toNat < 2 ^ 32 + size.toNat := by
    have hbefore : ¬ k <= k - 1 := by
      lia
    rw [ceilDiv_le_iff_le_mul hsize, Nat.mul_comm, Nat.sub_mul] at hbefore
    lia
  have hwrapped : k * size.toNat % 2 ^ 32 = k * size.toNat - 2 ^ 32 := by
    omega
  have hdisjoint : Disjoint (window total size (UInt32.ofNat 0))
      (window total size (UInt32.ofNat k)) := by
    have hpair := List.pairwise_map.mp h.disjoint
    rw [List.pairwise_iff_getElem] at hpair
    have hat := hpair 0 k (by simp) (by simpa using Nat.lt_succ_of_le hk) hpos
    simpa using hat
  have hzero : k * size.toNat - 2 ^ 32 ∈ window total size (UInt32.ofNat 0) := by
    rw [mem_window_iff, Nat.zero_mul]
    lia
  have hagain : k * size.toNat - 2 ^ 32 ∈ window total size (UInt32.ofNat k) := by
    rw [mem_window_iff, hwrapped]
    lia
  exact Set.disjoint_left.mp hdisjoint hzero hagain

theorem not_walksOnce_of_wraps (hsize : 1 <= size.toNat)
    (hpages : lastPage total size + 1 < 2 ^ 32)
    (hoffset : 2 ^ 32 <= lastPage total size * size.toNat) : ¬ WalksOnce rows total size := by
  intro hparts
  rcases hparts with ⟨bound, pages, hwalk, hcovers⟩
  rw [Iteration.visited_unique hwalk (walk_eq_range rows hsize hpages)] at hcovers
  exact not_coversOnce_range hsize hoffset hcovers

/--
For every total and every page size from one on: the walk ends and has seen
every position once and in order if and only if the pages up to that of the last
row, and their offsets, have 32 bits.
-/
theorem walksOnce_iff (rows : UInt32 -> UInt32 -> List T) (total : UInt64) (size : UInt32)
    (hsize : 1 <= size.toNat) :
    WalksOnce rows total size <->
      lastPage total size + 1 < 2 ^ 32 ∧ lastPage total size * size.toNat < 2 ^ 32 := by
  constructor
  · intro h
    have hpages : lastPage total size + 1 < 2 ^ 32 := by
      by_contra hlarge
      rcases h with ⟨bound, pages, hwalk, _⟩
      rw [walk_eq_none rows hsize (Nat.not_lt.mp hlarge)] at hwalk
      cases hwalk
    refine ⟨hpages, ?_⟩
    by_contra hlarge
    exact not_walksOnce_of_wraps rows hsize hpages (Nat.not_lt.mp hlarge) h
  · intro hparts
    rcases hparts with ⟨hpages, hoffset⟩
    exact ⟨_, _, walk_eq_range rows hsize hpages, coversOnce_range hsize hoffset⟩

end Walk

theorem thirdPage_not_walksOnce :
    PageRequest.offset { page := 2, size := 2147483648 } = 0 ∧
      ¬ WalksOnce (T := Unit) (fun _ _ => []) 4294967297 2147483648 :=
  ⟨by decide, not_walksOnce_of_wraps _ (by decide) (by decide) (by decide)⟩

theorem twentyFiveRows_walksOnce : WalksOnce (T := Unit) (fun _ _ => []) 25 10 :=
  (walksOnce_iff (fun _ _ => []) 25 10 (by decide)).mpr (by decide)

end Application
end CppCommons
