import Mathlib.Data.List.Induction
import Mathlib.Tactic.Set
import NativeBridge.Proofs.Cache

/-! # The history of a cache

A cache is a queue of the symbols that came into it, of which it keeps the last ones, as many as
it has room for. So what it answers is told by its history: by the last insert of a symbol, and by
what came in since this symbol was last brought in from absence.
-/

namespace NativeBridge.Cache

inductive Operation
  | insert (symbol descriptor : String)
  | get (symbol : String)
  deriving DecidableEq

def Operation.inserted? (symbol : String) : Operation → Option String
  | .insert inserted descriptor => if inserted = symbol then some descriptor else none
  | .get _ => none

def step (c : Cache) : Operation → Cache
  | .insert symbol descriptor => c.insert symbol descriptor
  | .get _ => c

def run (c : Cache) (ops : List Operation) : Cache :=
  ops.foldl step c

/-- The symbol that an operation brings in from absence. -/
def arrival? (c : Cache) : Operation → Option String
  | .insert symbol _ => if symbol ∈ c.symbols then none else some symbol
  | .get _ => none

/-- The symbols that were brought in from absence, in order. -/
def arrivals (c : Cache) : List Operation → List String
  | [] => []
  | op :: ops => (c.arrival? op).toList ++ (c.step op).arrivals ops

def lastInserted? (ops : List Operation) (symbol : String) : Option String :=
  ops.reverse.findSome? (·.inserted? symbol)

/-- Whether these are the symbols that came in since a symbol was last brought in from absence. -/
structure Since (c : Cache) (ops : List Operation) (symbol : String) (newcomers : List String) :
    Prop where
  exists_insert : ∃ before descriptor later, ops = before ++ .insert symbol descriptor :: later ∧
    symbol ∉ (c.run before).symbols ∧
    (c.run (before ++ [.insert symbol descriptor])).arrivals later = newcomers
  not_mem : symbol ∉ newcomers

section History

variable {c : Cache} {ops : List Operation} {symbol : String} {newcomers : List String}

theorem run_append (c : Cache) (ops later : List Operation) :
    c.run (ops ++ later) = (c.run ops).run later :=
  List.foldl_append

theorem arrivals_append (c : Cache) (ops later : List Operation) :
    c.arrivals (ops ++ later) = c.arrivals ops ++ (c.run ops).arrivals later := by
  induction ops generalizing c with
  | nil => rfl
  | cons op ops ih =>
    rw [List.cons_append, arrivals, ih, ← List.append_assoc]
    rfl

theorem arrivals_concat (c : Cache) (ops : List Operation) (op : Operation) :
    c.arrivals (ops ++ [op]) = c.arrivals ops ++ ((c.run ops).arrival? op).toList := by
  rw [arrivals_append, arrivals, arrivals, List.append_nil]

theorem lastInserted?_concat (ops : List Operation) (op : Operation) (symbol : String) :
    lastInserted? (ops ++ [op]) symbol = (op.inserted? symbol).or (lastInserted? ops symbol) := by
  rw [lastInserted?, List.reverse_append, List.reverse_singleton, List.singleton_append,
    List.findSome?_cons]
  cases op.inserted? symbol with
  | none => rfl
  | some descriptor => rfl

theorem exists_insert_of_arrivals {earlier : List String}
    (h : c.arrivals ops = earlier ++ symbol :: newcomers) :
    ∃ before descriptor later, ops = before ++ .insert symbol descriptor :: later ∧
      symbol ∉ (c.run before).symbols ∧
      (c.run (before ++ [.insert symbol descriptor])).arrivals later = newcomers := by
  induction ops generalizing c earlier with
  | nil => exact absurd h (by simp [arrivals])
  | cons op ops ih =>
    -- what arrives with another operation is found behind this one
    have hbehind {earlier : List String}
        (h : (c.step op).arrivals ops = earlier ++ symbol :: newcomers) :
        ∃ before descriptor later, op :: ops = before ++ .insert symbol descriptor :: later ∧
          symbol ∉ (c.run before).symbols ∧
          (c.run (before ++ [.insert symbol descriptor])).arrivals later = newcomers := by
      obtain ⟨before, descriptor, later, rfl, hnot, hnewcomers⟩ := ih h
      exact ⟨op :: before, descriptor, later, rfl, hnot, hnewcomers⟩
    rw [arrivals] at h
    cases harrival : c.arrival? op with
    | none =>
      rw [harrival] at h
      exact hbehind h
    | some arrived =>
      rw [harrival] at h
      cases earlier with
      | cons first earlier => exact hbehind (List.cons.inj h).2
      | nil =>
        obtain ⟨rfl, hnewcomers⟩ := List.cons.inj h
        cases op with
        | get symbol => cases harrival
        | insert inserted descriptor =>
          obtain ⟨hnot, hinserted⟩ := Option.ite_none_left_eq_some.mp harrival
          obtain rfl := Option.some.inj hinserted
          exact ⟨[], descriptor, ops, rfl, hnot, hnewcomers⟩

theorem since_iff : Since c ops symbol newcomers ↔
    (∃ earlier, c.arrivals ops = earlier ++ symbol :: newcomers) ∧ symbol ∉ newcomers := by
  constructor
  · rintro ⟨⟨before, descriptor, later, rfl, hnot, rfl⟩, hlast⟩
    refine ⟨⟨c.arrivals before, ?_⟩, hlast⟩
    rw [arrivals_append, arrivals, arrival?, if_neg hnot, run_append]
    rfl
  · rintro ⟨⟨earlier, h⟩, hlast⟩
    exact ⟨exists_insert_of_arrivals h, hlast⟩

end History

/-- A cache as a queue of the symbols that came in, the first of which may be gone. -/
structure Queued (capacity : Nat) (ops : List Operation) (c : Cache) : Prop where
  capacity_eq : c.capacity = max capacity 1
  nodup : c.symbols.Nodup
  size_le : c.size ≤ c.capacity
  arrivals_eq : ∃ gone, (empty capacity).arrivals ops = gone ++ c.symbols ∧
    (gone ≠ [] → c.size = c.capacity)
  last : ∀ e ∈ c.entries, lastInserted? ops e.1 = some e.2

namespace Queued

variable {capacity : Nat} {ops : List Operation} {c : Cache} {symbol descriptor : String}

theorem nil (capacity : Nat) : Queued capacity [] (empty capacity) where
  capacity_eq := rfl
  nodup := .nil
  size_le := Nat.zero_le _
  arrivals_eq := ⟨[], rfl, fun h => absurd rfl h⟩
  last := fun _ h => absurd h List.not_mem_nil

theorem get (h : Queued capacity ops ((empty capacity).run ops)) (symbol : String) :
    Queued capacity (ops ++ [.get symbol]) ((empty capacity).run ops) where
  capacity_eq := h.capacity_eq
  nodup := h.nodup
  size_le := h.size_le
  arrivals_eq := by
    rw [arrivals_concat, arrival?, Option.toList_none, List.append_nil]
    exact h.arrivals_eq
  last e he := by
    rw [lastInserted?_concat]
    exact h.last e he

theorem capacity_pos (h : Queued capacity ops c) : 0 < c.capacity :=
  h.capacity_eq ▸ Nat.le_max_right capacity 1

/-- What an insert drops from a full cache joins what is gone. -/
theorem arrivals_insert (h : Queued capacity ops ((empty capacity).run ops))
    (symbol descriptor : String) :
    ∃ gone, (empty capacity).arrivals (ops ++ [.insert symbol descriptor]) =
        gone ++ (((empty capacity).run ops).insert symbol descriptor).symbols ∧
      (gone ≠ [] → (((empty capacity).run ops).insert symbol descriptor).size =
        ((empty capacity).run ops).capacity) := by
  obtain ⟨gone, hgone, hfull⟩ := h.arrivals_eq
  rw [arrivals_concat, arrival?, hgone]
  have hpos := h.capacity_pos
  have hsize := h.size_le
  generalize (empty capacity).run ops = c at *
  by_cases hmem : symbol ∈ c.symbols
  · rw [if_pos hmem, symbols_insert_of_mem descriptor hmem, size_insert_of_mem descriptor hmem]
    exact ⟨gone, List.append_nil _, hfull⟩
  · rw [if_neg hmem, symbols_insert_of_not_mem descriptor hmem,
      size_insert_of_not_mem descriptor hmem hpos hsize]
    set dropped := if c.size = c.capacity then 1 else 0 with hdropped
    refine ⟨gone ++ c.symbols.take dropped, ?_, fun hne => ?_⟩
    · rw [Option.toList_some, List.append_assoc, List.append_assoc,
        ← List.append_assoc (c.symbols.take _), List.take_append_drop]
    · have hroom : c.size = c.capacity := by
        by_contra hroom
        rw [if_neg hroom] at hdropped
        rw [hdropped, List.take_zero, List.append_nil] at hne
        exact hroom (hfull hne)
      omega

theorem insert (h : Queued capacity ops ((empty capacity).run ops)) (symbol descriptor : String) :
    Queued capacity (ops ++ [.insert symbol descriptor])
      (((empty capacity).run ops).insert symbol descriptor) where
  capacity_eq := (capacity_insert ..).trans h.capacity_eq
  nodup := nodup_insert descriptor h.nodup
  size_le := by
    rw [capacity_insert]
    exact size_insert_le descriptor h.capacity_pos h.size_le
  arrivals_eq := by
    rw [capacity_insert]
    exact h.arrivals_insert symbol descriptor
  last e he := by
    rw [lastInserted?_concat, Operation.inserted?]
    rcases mem_insert he with ⟨hold, hne⟩ | rfl
    · rw [if_neg hne.symm, Option.none_or]
      exact h.last e hold
    · rw [if_pos rfl, Option.some_or]

theorem step (h : Queued capacity ops ((empty capacity).run ops)) (op : Operation) :
    Queued capacity (ops ++ [op]) ((empty capacity).run (ops ++ [op])) := by
  rw [run_append]
  cases op with
  | insert symbol descriptor => exact h.insert symbol descriptor
  | get symbol => exact h.get symbol

end Queued

theorem queued (capacity : Nat) (ops : List Operation) :
    Queued capacity ops ((empty capacity).run ops) := by
  induction ops using List.reverseRecOn with
  | nil => exact .nil capacity
  | append_singleton ops op ih => exact ih.step op

namespace Queued

variable {capacity : Nat} {ops : List Operation} {c : Cache} {symbol descriptor : String}

/-- The symbols present are those after which too few came in to make them leave. -/
theorem mem_symbols_iff (h : Queued capacity ops c) : symbol ∈ c.symbols ↔
    ∃ newcomers, Since (empty capacity) ops symbol newcomers ∧
      newcomers.length < max capacity 1 := by
  obtain ⟨gone, harrivals, hgone⟩ := h.arrivals_eq
  have hsize := h.size_le
  rw [← length_symbols, h.capacity_eq] at hsize hgone
  simp only [since_iff, harrivals]
  constructor
  · intro hmem
    obtain ⟨older, newcomers, hsymbols⟩ := List.append_of_mem hmem
    have hnodup := h.nodup
    rw [hsymbols] at hnodup hsize
    refine ⟨newcomers, ⟨⟨gone ++ older, ?_⟩, ?_⟩, ?_⟩
    · rw [hsymbols, List.append_assoc]
    · exact (List.nodup_cons.mp (List.nodup_append.mp hnodup).2.1).1
    · rw [List.length_append, List.length_cons] at hsize
      omega
  · rintro ⟨newcomers, ⟨⟨earlier, heq⟩, -⟩, hfew⟩
    rcases Nat.lt_or_ge newcomers.length c.symbols.length with hlt | hge
    · -- both end the arrivals, so the shorter one ends the other
      have hsuffix : symbol :: newcomers <:+ c.symbols :=
        List.suffix_of_suffix_length_le ⟨earlier, heq.symm⟩ (List.suffix_append gone _) hlt
      exact hsuffix.subset List.mem_cons_self
    · have hnone : gone = [] := by
        by_contra hne
        have hfull := hgone hne
        omega
      rw [hnone, List.nil_append] at heq
      rw [heq]
      simp

end Queued

/-- A cache knows a symbol as it was last inserted, from when it was brought in from absence until
as many others were as there is room for. -/
theorem first_in_first_out (capacity : Nat) (ops : List Operation) :
    ((empty capacity).run ops).symbols.Nodup ∧
    ((empty capacity).run ops).size ≤ max capacity 1 ∧
    (∀ symbol descriptor, ((empty capacity).run ops).get? symbol = some descriptor ↔
      lastInserted? ops symbol = some descriptor ∧
      ∃ newcomers, Since (empty capacity) ops symbol newcomers ∧
        newcomers.length < max capacity 1) ∧
    (∀ symbol later, (empty capacity).run (ops ++ .get symbol :: later) =
      (empty capacity).run (ops ++ later)) ∧
    (∀ symbol descriptor, symbol ∈ ((empty capacity).run ops).symbols →
      (((empty capacity).run ops).insert symbol descriptor).symbols =
        ((empty capacity).run ops).symbols ∧
      ∀ other, (((empty capacity).run ops).insert symbol descriptor).get? other =
        if other = symbol then some descriptor else ((empty capacity).run ops).get? other) := by
  have h := queued capacity ops
  have hsize := h.size_le
  rw [h.capacity_eq] at hsize
  refine ⟨h.nodup, hsize, fun symbol descriptor => ?_, fun symbol later => ?_, ?_⟩
  · rw [get?_eq_some_iff h.nodup, ← h.mem_symbols_iff, mem_symbols_iff]
    constructor
    · intro hmem
      exact ⟨h.last _ hmem, descriptor, hmem⟩
    · rintro ⟨hlast, present, hmem⟩
      obtain rfl := Option.some.inj (hlast.symm.trans (h.last _ hmem))
      exact hmem
  · rw [run_append, run_append]
    rfl
  · intro symbol descriptor hmem
    constructor
    · exact symbols_insert_of_mem descriptor hmem
    · exact get?_insert_of_mem hmem

/-- A symbol that is inserted again while present leaves no later for it. -/
example : ((empty 2).run [.insert "a" "(I)V", .insert "b" "(J)V", .insert "a" "(F)V",
    .insert "c" "(D)V"]).symbols = ["b", "c"] := by decide

end NativeBridge.Cache
