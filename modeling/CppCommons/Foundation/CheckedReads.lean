import Mathlib.Data.List.GetD

/-!
# Checked reads

Programs that read cells of a list by their index.  A read outside the list fails,
and the indices of all reads are logged in order.  The rules say which indices a
program reads and what it returns.
-/

namespace CppCommons
namespace Foundation
namespace CheckedReads

variable {cell result result' item : Type}

abbrev Reading (result : Type) : Type := StateT (List Nat) Option result

def read (cells : List cell) (i : Nat) : Reading cell :=
  fun log => cells[i]?.map (fun c => (c, log ++ [i]))

/-- The program returns `r` after reading the cells at `indices`. -/
def Yields (program : Reading result) (indices : List Nat) (r : result) : Prop :=
  forall log, program log = some (r, log ++ indices)

section Rules

theorem Yields.of_pure (r : result) : Yields (pure r : Reading result) [] r := by
  intro log
  rw [List.append_nil]
  rfl

theorem Yields.of_read {cells : List cell} {i : Nat} (h : i < cells.length) (default : cell) :
    Yields (read cells i) [i] (cells.getD i default) := by
  intro log
  rw [read, List.getElem?_eq_getElem h, List.getD_eq_getElem cells default h]
  rfl

theorem Yields.of_getElem? {cells : List cell} {i : Nat} {c : cell} (h : cells[i]? = some c) :
    Yields (read cells i) [i] c := by
  intro log
  rw [read, h]
  rfl

theorem Yields.bind {program : Reading result} {next : result -> Reading result'}
    {indices more : List Nat} {r : result} {r' : result'} (h : Yields program indices r)
    (hnext : Yields (next r) more r') : Yields (program >>= next) (indices ++ more) r' := by
  intro log
  have hrun : (program >>= next) log = (program log).bind (fun p => next p.1 p.2) := rfl
  rw [hrun, h log, Option.bind_some, hnext, List.append_assoc]

theorem Yields.bind_pure {program : Reading result} {indices : List Nat} {r : result}
    (h : Yields program indices r) (f : result -> result') :
    Yields (program >>= fun r => pure (f r)) indices (f r) := by
  have hbind : Yields (program >>= fun r => pure (f r)) (indices ++ []) (f r) :=
    h.bind (.of_pure (f r))
  rw [List.append_nil] at hbind
  exact hbind

theorem Yields.foldlM {f : result -> item -> Reading result} {g : result -> item -> result}
    {indices : item -> List Nat} {items : List item}
    (h : forall r i, i ∈ items -> Yields (f r i) (indices i) (g r i)) (r : result) :
    Yields (items.foldlM f r) (items.flatMap indices) (items.foldl g r) := by
  induction items generalizing r with
  | nil => exact .of_pure r
  | cons i items ih =>
      rw [List.foldlM_cons, List.flatMap_cons, List.foldl_cons]
      exact (h r i List.mem_cons_self).bind
        (ih (fun r' i' hi' => h r' i' (List.mem_cons_of_mem i hi')) (g r i))

end Rules

theorem flatMap_blocks (start count size : Nat) :
    (List.range count).flatMap (fun j => (List.range size).map (fun i => start + j * size + i)) =
      (List.range (count * size)).map (fun i => start + i) := by
  induction count with
  | zero => rw [Nat.zero_mul, List.range_zero, List.flatMap_nil, List.map_nil]
  | succ count ih =>
      have hlast : ((List.range size).map (fun i => count * size + i)).map (fun i => start + i) =
          (List.range size).map (fun i => start + count * size + i) := by
        rw [List.map_map]
        apply List.map_congr_left
        intro i _
        exact (Nat.add_assoc start (count * size) i).symm
      rw [List.range_succ, List.flatMap_append, ih, List.flatMap_singleton, Nat.succ_mul,
        List.range_add, List.map_append, hlast]

end CheckedReads
end Foundation
end CppCommons
