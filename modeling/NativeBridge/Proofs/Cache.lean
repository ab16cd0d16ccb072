import Mathlib.Data.List.Nodup
import NativeBridge.Cache

/-! # What a cache holds

The symbols of a cache in the order of their age, and what an insert does to them: a symbol that
is present stays where it is, and every other one comes last, after the oldest has made room for
it if the cache is full.
-/

namespace NativeBridge.Cache

variable {c : Cache} {symbol descriptor : String}

def symbols (c : Cache) : List String :=
  c.entries.map Prod.fst

theorem length_symbols (c : Cache) : c.symbols.length = c.size :=
  List.length_map _

theorem mem_symbols_iff : symbol ∈ c.symbols ↔ ∃ descriptor, (symbol, descriptor) ∈ c.entries := by
  simp [symbols]

theorem mem_of_get? (h : c.get? symbol = some descriptor) : (symbol, descriptor) ∈ c.entries := by
  obtain ⟨entry, hentry, rfl⟩ := Option.map_eq_some_iff.mp h
  have hsymbol : entry.1 = symbol := by simpa using List.find?_some hentry
  rw [← hsymbol]
  exact List.mem_of_find?_eq_some hentry

theorem get?_eq_none_iff : c.get? symbol = none ↔ symbol ∉ c.symbols := by
  rw [get?, Option.map_eq_none_iff, List.find?_eq_none, mem_symbols_iff]
  constructor
  · rintro h ⟨descriptor, hmem⟩
    exact h _ hmem (beq_self_eq_true symbol)
  · rintro h ⟨present, descriptor⟩ hmem hpresent
    obtain rfl := beq_iff_eq.mp hpresent
    exact h ⟨descriptor, hmem⟩

theorem get?_eq_some_iff (hnodup : c.symbols.Nodup) :
    c.get? symbol = some descriptor ↔ (symbol, descriptor) ∈ c.entries := by
  constructor
  · exact mem_of_get?
  · intro hmem
    cases hget : c.get? symbol with
    | none => exact absurd (mem_symbols_iff.mpr ⟨descriptor, hmem⟩) (get?_eq_none_iff.mp hget)
    | some found =>
      obtain ⟨-, rfl⟩ :=
        Prod.mk.inj (List.inj_on_of_nodup_map hnodup hmem (mem_of_get? hget) rfl)
      rfl

section Insert

variable (c : Cache) (symbol descriptor : String)

theorem capacity_insert : (c.insert symbol descriptor).capacity = c.capacity := by
  unfold insert
  split <;> rfl

variable {c symbol}

theorem insert_of_mem (h : symbol ∈ c.symbols) :
    (c.insert symbol descriptor).entries =
      c.entries.map fun e => if e.1 = symbol then (symbol, descriptor) else e := by
  have hany : c.entries.any (·.1 == symbol) = true := by
    simpa [symbols] using h
  unfold insert
  rw [if_pos hany]
  simp only [beq_iff_eq]

/-- An insert of a new symbol makes room for it first, if there is none. -/
theorem insert_of_not_mem (h : symbol ∉ c.symbols) :
    (c.insert symbol descriptor).entries =
      c.entries.drop (if c.size = c.capacity then 1 else 0) ++ [(symbol, descriptor)] := by
  have hany : ¬c.entries.any (·.1 == symbol) = true := by
    simpa [symbols] using h
  unfold insert
  rw [if_neg hany]
  split <;> rfl

theorem symbols_insert_of_mem (h : symbol ∈ c.symbols) :
    (c.insert symbol descriptor).symbols = c.symbols := by
  rw [symbols, insert_of_mem descriptor h, List.map_map]
  apply List.map_congr_left
  intro e _
  by_cases he : e.1 = symbol
  · simp [he]
  · simp [he]

theorem symbols_insert_of_not_mem (h : symbol ∉ c.symbols) :
    (c.insert symbol descriptor).symbols =
      c.symbols.drop (if c.size = c.capacity then 1 else 0) ++ [symbol] := by
  rw [symbols, insert_of_not_mem descriptor h, List.map_append, List.map_drop]
  rfl

theorem size_insert_of_mem (h : symbol ∈ c.symbols) :
    (c.insert symbol descriptor).size = c.size := by
  rw [← length_symbols, symbols_insert_of_mem descriptor h, length_symbols]

theorem size_insert_of_not_mem (h : symbol ∉ c.symbols) (hpos : 0 < c.capacity)
    (hle : c.size ≤ c.capacity) :
    (c.insert symbol descriptor).size = min (c.size + 1) c.capacity := by
  rw [← length_symbols, symbols_insert_of_not_mem descriptor h, List.length_append,
    List.length_drop, length_symbols, List.length_singleton]
  split <;> omega

theorem size_insert_le (hpos : 0 < c.capacity) (hle : c.size ≤ c.capacity) :
    (c.insert symbol descriptor).size ≤ c.capacity := by
  by_cases hmem : symbol ∈ c.symbols
  · rw [size_insert_of_mem descriptor hmem]
    exact hle
  · rw [size_insert_of_not_mem descriptor hmem hpos hle]
    exact Nat.min_le_right ..

theorem nodup_insert (h : c.symbols.Nodup) : (c.insert symbol descriptor).symbols.Nodup := by
  by_cases hmem : symbol ∈ c.symbols
  · rw [symbols_insert_of_mem descriptor hmem]
    exact h
  · rw [symbols_insert_of_not_mem descriptor hmem, ← List.concat_eq_append]
    exact .concat (mt List.mem_of_mem_drop hmem) (h.sublist (List.drop_sublist ..))

variable {descriptor}

theorem mem_insert {entry : String × String}
    (h : entry ∈ (c.insert symbol descriptor).entries) :
    (entry ∈ c.entries ∧ entry.1 ≠ symbol) ∨ entry = (symbol, descriptor) := by
  by_cases hmem : symbol ∈ c.symbols
  · rw [insert_of_mem descriptor hmem] at h
    obtain ⟨old, hold, rfl⟩ := List.mem_map.mp h
    by_cases heq : old.1 = symbol
    · exact Or.inr (if_pos heq)
    · rw [if_neg heq]
      exact Or.inl ⟨hold, heq⟩
  · rw [insert_of_not_mem descriptor hmem] at h
    rcases List.mem_append.mp h with h | h
    · have hold := List.mem_of_mem_drop h
      refine Or.inl ⟨hold, ?_⟩
      rintro rfl
      exact hmem (List.mem_map_of_mem hold)
    · exact Or.inr (List.mem_singleton.mp h)

/-- An insert of what a cache holds anyway leaves it as it was. -/
theorem insert_of_get? (hnodup : c.symbols.Nodup) (h : c.get? symbol = some descriptor) :
    c.insert symbol descriptor = c := by
  have hmem := mem_of_get? h
  have hsame : ∀ e ∈ c.entries, (if e.1 = symbol then (symbol, descriptor) else e) = e := by
    intro e he
    split
    · next hsymbol => exact List.inj_on_of_nodup_map hnodup hmem he hsymbol.symm
    · rfl
  have hentries : (c.insert symbol descriptor).entries = c.entries := by
    rw [insert_of_mem descriptor (mem_symbols_iff.mpr ⟨_, hmem⟩), List.map_congr_left hsame,
      List.map_id']
  exact congr (congrArg Cache.mk (capacity_insert c symbol descriptor)) hentries

/-- An insert of a symbol that is present tells nothing of any other one. -/
theorem get?_insert_of_mem (h : symbol ∈ c.symbols) (other : String) :
    (c.insert symbol descriptor).get? other =
      if other = symbol then some descriptor else c.get? other := by
  have hsame : ((·.1 == other) ∘ fun e : String × String =>
      if e.1 = symbol then (symbol, descriptor) else e) = (·.1 == other) := by
    ext e
    by_cases he : e.1 = symbol
    · simp [he]
    · simp [he]
  rw [get?, insert_of_mem descriptor h, List.find?_map, hsame]
  cases hfind : c.entries.find? (·.1 == other) with
  | none =>
    have hget : c.get? other = none := by rw [get?, hfind, Option.map_none]
    have hne : other ≠ symbol := by
      rintro rfl
      exact get?_eq_none_iff.mp hget h
    rw [if_neg hne, hget, Option.map_none, Option.map_none]
  | some e =>
    obtain rfl : e.1 = other := by simpa using List.find?_some hfind
    rw [get?, hfind]
    by_cases he : e.1 = symbol
    · simp [he]
    · simp [he]

end Insert

end NativeBridge.Cache
