import CppCommons.Foundation.LabelledRun

/-!
# Outbox publisher

`OutboxPublisher` collects events and hands them to registered publisher
functions on `flush`.  An event type is the key of `std::type_index`, an event
is the object behind the `unique_ptr`, and whatever a publisher function can
change counts as part of the bus it is given.
-/

namespace CppCommons
namespace Application

/-- A registered publisher: it may change the bus, and returns or throws. -/
abbrev PublishFn (bus event exn : Type) := bus -> event -> bus × Except exn Unit

structure Entry (type event : Type) where
  type : type
  event : event
deriving DecidableEq, Repr

structure OutboxPublisher (type event bus exn : Type) where
  outbox : List (Entry type event)
  publishers : type -> Option (PublishFn bus event exn)

/-- What one pass of the publish loop did: the bus it left, the calls it made
in order with their results, and how it ended. -/
structure PublishTrace (type event bus exn : Type) where
  bus : bus
  calls : List (Entry type event × Except exn Unit)
  exit : Except exn Unit

namespace OutboxPublisher

variable {type event bus exn : Type}

def empty : OutboxPublisher type event bus exn :=
  { outbox := [], publishers := fun _ => none }

def registerPublisher [DecidableEq type] (p : OutboxPublisher type event bus exn)
    (t : type) (fn : PublishFn bus event exn) : OutboxPublisher type event bus exn :=
  { p with publishers := Function.update p.publishers t (some fn) }

def store (p : OutboxPublisher type event bus exn) (t : type) (e : event) :
    OutboxPublisher type event bus exn :=
  { p with outbox := p.outbox ++ [{ type := t, event := e }] }

/-- The locked part of `flush`: `pending.swap(outbox_)` with an empty vector. -/
def swapOut (p : OutboxPublisher type event bus exn) :
    List (Entry type event) × OutboxPublisher type event bus exn :=
  (p.outbox, { p with outbox := [] })

def publishLoop (publishers : type -> Option (PublishFn bus event exn)) :
    List (Entry type event) -> bus -> PublishTrace type event bus exn
  | [], b => { bus := b, calls := [], exit := .ok () }
  | entry :: rest, b =>
      match publishers entry.type with
      | none => publishLoop publishers rest b
      | some fn =>
          match fn b entry.event with
          | (b', .ok ()) =>
              let trace := publishLoop publishers rest b'
              { trace with calls := (entry, .ok ()) :: trace.calls }
          | (b', .error e) =>
              { bus := b', calls := [(entry, .error e)], exit := .error e }

def flush (p : OutboxPublisher type event bus exn) (b : bus) :
    OutboxPublisher type event bus exn × PublishTrace type event bus exn :=
  let (pending, p') := p.swapOut
  (p', publishLoop p'.publishers pending b)

def Registered (p : OutboxPublisher type event bus exn) (t : type) : Prop :=
  (p.publishers t).isSome = true

end OutboxPublisher

namespace PublishTrace

variable {type event bus exn : Type}

/-- Entries whose publisher was called and returned. -/
def delivered (trace : PublishTrace type event bus exn) : List (Entry type event) :=
  trace.calls.filterMap (fun call =>
    match call.snd with
    | .ok () => some call.fst
    | .error _ => none)

end PublishTrace

namespace OutboxPublisher

variable {type event bus exn : Type}

/-!
## The publish loop

`PublishersReturn` asks of the publishers alone that none of the calls the loop
is about to make throws.  The loop then delivers every entry with a publisher;
otherwise it delivers only entries in front of the one whose publisher threw.
-/

/-- No publisher throws when called on the entries in order. -/
def PublishersReturn (publishers : type -> Option (PublishFn bus event exn)) :
    List (Entry type event) -> bus -> Prop
  | [], _ => True
  | entry :: rest, b =>
      match publishers entry.type with
      | none => PublishersReturn publishers rest b
      | some fn => (fn b entry.event).snd = .ok () ∧
          PublishersReturn publishers rest (fn b entry.event).fst

variable {publishers : type -> Option (PublishFn bus event exn)}

theorem delivered_publishLoop_skip {entry : Entry type event}
    (rest : List (Entry type event)) (b : bus) (h : publishers entry.type = none) :
    (publishLoop publishers (entry :: rest) b).delivered =
      (publishLoop publishers rest b).delivered := by
  rw [publishLoop, h]

theorem delivered_publishLoop_return {entry : Entry type event}
    (rest : List (Entry type event)) {b : bus} {fn : PublishFn bus event exn}
    (h : publishers entry.type = some fn) (hreturn : (fn b entry.event).snd = .ok ()) :
    (publishLoop publishers (entry :: rest) b).delivered =
      entry :: (publishLoop publishers rest (fn b entry.event).fst).delivered := by
  rw [publishLoop, h]
  cases hcall : fn b entry.event with
  | mk b' result =>
      rw [hcall] at hreturn
      cases hreturn
      simp only [hcall]
      rfl

theorem delivered_publishLoop_throw {entry : Entry type event}
    (rest : List (Entry type event)) {b : bus} {fn : PublishFn bus event exn}
    (h : publishers entry.type = some fn) (hthrow : (fn b entry.event).snd ≠ .ok ()) :
    (publishLoop publishers (entry :: rest) b).delivered = [] := by
  rw [publishLoop, h]
  cases hcall : fn b entry.event with
  | mk b' result =>
      cases result with
      | ok value =>
          rw [hcall] at hthrow
          exact absurd rfl hthrow
      | error e =>
          simp only [hcall]
          rfl

theorem mem_delivered_of_publishersReturn {entries : List (Entry type event)} {b : bus}
    (h : PublishersReturn publishers entries b) {entry : Entry type event}
    (hentry : entry ∈ entries) (hregistered : (publishers entry.type).isSome = true) :
    entry ∈ (publishLoop publishers entries b).delivered := by
  induction entries generalizing b with
  | nil => cases hentry
  | cons first rest ih =>
      cases hfn : publishers first.type with
      | none =>
          rw [PublishersReturn, hfn] at h
          rw [delivered_publishLoop_skip rest b hfn]
          cases hentry with
          | head =>
              rw [hfn] at hregistered
              cases hregistered
          | tail _ hrest => exact ih h hrest
      | some fn =>
          rw [PublishersReturn, hfn] at h
          rw [delivered_publishLoop_return rest hfn h.left]
          cases hentry with
          | head => exact List.mem_cons_self
          | tail _ hrest => exact List.mem_cons_of_mem first (ih h.right hrest)

theorem delivered_before_throw {entries : List (Entry type event)} {b : bus}
    (h : ¬ PublishersReturn publishers entries b) :
    exists front entry rest, entries = front ++ entry :: rest ∧
      (publishers entry.type).isSome = true ∧
      forall e, e ∈ (publishLoop publishers entries b).delivered -> e ∈ front := by
  induction entries generalizing b with
  | nil => exact absurd True.intro h
  | cons first rest ih =>
      cases hfn : publishers first.type with
      | none =>
          rw [PublishersReturn, hfn] at h
          rcases ih h with ⟨front, entry, back, hsplit, hregistered, hfront⟩
          refine ⟨first :: front, entry, back, by rw [hsplit]; rfl, hregistered, ?_⟩
          intro e he
          rw [delivered_publishLoop_skip rest b hfn] at he
          exact List.mem_cons_of_mem first (hfront e he)
      | some fn =>
          by_cases hcall : (fn b first.event).snd = .ok ()
          · have hrest : ¬ PublishersReturn publishers rest (fn b first.event).fst := by
              intro hreturn
              apply h
              rw [PublishersReturn, hfn]
              exact ⟨hcall, hreturn⟩
            rcases ih hrest with ⟨front, entry, back, hsplit, hregistered, hfront⟩
            refine ⟨first :: front, entry, back, by rw [hsplit]; rfl, hregistered, ?_⟩
            intro e he
            rw [delivered_publishLoop_return rest hfn hcall] at he
            cases he with
            | head => exact List.mem_cons_self
            | tail _ htail => exact List.mem_cons_of_mem first (hfront e htail)
          · refine ⟨[], first, rest, rfl, by rw [hfn]; rfl, ?_⟩
            intro e he
            rw [delivered_publishLoop_throw rest hfn hcall] at he
            cases he

theorem delivered_subset {entries : List (Entry type event)} {b : bus}
    {entry : Entry type event}
    (h : entry ∈ (publishLoop publishers entries b).delivered) : entry ∈ entries := by
  induction entries generalizing b with
  | nil => cases h
  | cons first rest ih =>
      cases hfn : publishers first.type with
      | none =>
          rw [delivered_publishLoop_skip rest b hfn] at h
          exact List.mem_cons_of_mem first (ih h)
      | some fn =>
          by_cases hcall : (fn b first.event).snd = .ok ()
          · rw [delivered_publishLoop_return rest hfn hcall] at h
            cases h with
            | head => exact List.mem_cons_self
            | tail _ htail => exact List.mem_cons_of_mem first (ih htail)
          · rw [delivered_publishLoop_throw rest hfn hcall] at h
            cases h

end OutboxPublisher
end Application
end CppCommons
