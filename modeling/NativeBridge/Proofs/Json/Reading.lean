import NativeBridge.Json.Printer
import NativeBridge.Json.Value
import NativeBridge.Proofs.Text.Bytes

/-! # Texts that readers take for values

A reader takes a text for a value when it does so after blanks of any number and whatever comes
after the text, except what could go on with a number. The law is stated for each reader beside the
text that is printed for its values, and kept by what readers are combined with.
-/

namespace NativeBridge.Json

open Text (bytes bytes_nil bytes_append bytes_cons_of_ascii)

def goesOn (b : UInt8) : Bool :=
  isDigit b || spells '.' b || isExponentMark b

/-- Whether no number could go on with these bytes. -/
def Ends (rest : List UInt8) : Prop :=
  ∀ b ∈ rest.head?, goesOn b = false

theorem ends_nil : Ends [] := by
  intro b hb
  cases hb

theorem ends_cons {b : UInt8} (h : goesOn b = false) (r : List UInt8) : Ends (b :: r) := by
  intro c hc
  rwa [← Option.some.inj hc]

def Stops (text : List Char) : Prop :=
  ∀ rest, Ends (bytes text ++ rest)

theorem stops_cons {c : Char} (hc : c.toNat < 128) (h : goesOn c.toUInt8 = false)
    (text : List Char) : Stops (c :: text) := by
  intro rest
  rw [bytes_cons_of_ascii hc]
  exact ends_cons h _

/-- Whether a character is one byte that is not passed over as a blank. -/
structure IsMark (c : Char) : Prop where
  ascii : c.toNat < 128
  not_blank : isBlank c.toUInt8 = false

theorem toNat_toUInt8 {c : Char} (h : c.toNat < 128) : c.toUInt8.toNat = c.toNat := by
  rw [Char.toUInt8, UInt32.toNat_toUInt8]
  exact Nat.mod_eq_of_lt (Nat.lt_trans h (by decide))

theorem spells_toUInt8_iff {c d : Char} (hc : c.toNat < 128) (hd : d.toNat < 128) :
    spells c d.toUInt8 = true ↔ c = d := by
  rw [spells, beq_iff_eq, ← UInt8.toNat_inj, toNat_toUInt8 hc, toNat_toUInt8 hd, Char.toNat_inj,
    eq_comm]

theorem spells_self {c : Char} (h : c.toNat < 128) : spells c c.toUInt8 = true :=
  (spells_toUInt8_iff h h).mpr rfl

theorem spells_eq_false {c d : Char} (hc : c.toNat < 128) (hd : d.toNat < 128) (h : c ≠ d) :
    spells c d.toUInt8 = false := by
  rw [Bool.eq_false_iff, Ne, spells_toUInt8_iff hc hd]
  exact h

theorem skipBlanks_append {blanks : List UInt8} (h : ∀ b ∈ blanks, isBlank b = true)
    (s : List UInt8) : skipBlanks (blanks ++ s) = skipBlanks s :=
  List.dropWhile_append_of_pos h

theorem skipBlanks_cons {b : UInt8} (h : isBlank b = false) (r : List UInt8) :
    skipBlanks (b :: r) = b :: r :=
  List.dropWhile_cons_of_neg (by simp [h])

/-- Whether a reader takes the text for the value. -/
def Reads {α : Type} (reader : Reader α) (text : List Char) (a : α) : Prop :=
  ∀ blanks rest, (∀ b ∈ blanks, isBlank b = true) → Ends rest →
    reader.run (blanks ++ (bytes text ++ rest)) = .ok (a, rest)

namespace Reads

variable {α β : Type} {reader : Reader α} {text : List Char} {a : α}

/-- The law for readers that look at the first byte after blanks. -/
theorem of_run {f : UInt8 → List UInt8 → Except Mishap (α × List UInt8)}
    (hrun : ∀ s, reader.run s = match skipBlanks s with
      | [] => .error .ended
      | b :: r => f b r)
    {c : Char} (hc : IsMark c)
    (h : ∀ rest, Ends rest → f c.toUInt8 (bytes text ++ rest) = .ok (a, rest)) :
    Reads reader (c :: text) a := by
  intro blanks rest hblanks hrest
  have hskip : skipBlanks (blanks ++ (bytes (c :: text) ++ rest)) =
      c.toUInt8 :: (bytes text ++ rest) := by
    rw [skipBlanks_append hblanks, bytes_cons_of_ascii hc.ascii, List.cons_append,
      skipBlanks_cons hc.not_blank]
  rw [hrun, hskip]
  exact h rest hrest

theorem run (h : Reads reader text a) {rest : List UInt8} (hrest : Ends rest) :
    reader.run (bytes text ++ rest) = .ok (a, rest) :=
  h [] rest (List.forall_mem_nil _) hrest

theorem run_cons {c : Char} (h : Reads reader (c :: text) a) (hc : c.toNat < 128)
    {rest : List UInt8} (hrest : Ends rest) :
    reader.run (c.toUInt8 :: (bytes text ++ rest)) = .ok (a, rest) := by
  have hrun := h.run hrest
  rwa [bytes_cons_of_ascii hc, List.cons_append] at hrun

theorem filterMap {f : α → Option β} {b : β} (h : Reads reader text a) (hf : f a = some b) :
    Reads (reader.filterMap f) text b := by
  intro blanks rest hblanks hrest
  simp only [Reader.filterMap, h blanks rest hblanks hrest, hf]

theorem map (h : Reads reader text a) (f : α → β) : Reads (reader.map f) text (f a) :=
  h.filterMap rfl

theorem andThen {next : α → Reader β} {after : List Char} {b : β} (h : Reads reader text a)
    (hnext : Reads (next a) after b) (hafter : Stops after) :
    Reads (reader.andThen next) (text ++ after) b := by
  intro blanks rest hblanks hrest
  have hfirst := h blanks (bytes after ++ rest) hblanks (hafter rest)
  rw [bytes_append, List.append_assoc]
  simp only [Reader.andThen, hfirst]
  exact hnext.run hrest

/-- A blank in front of a text changes nothing. -/
theorem blank (h : Reads reader text a) : Reads reader (' ' :: text) a := by
  intro blanks rest hblanks hrest
  have hall : ∀ b ∈ blanks ++ [(' ' : Char).toUInt8], isBlank b = true := by
    rw [List.forall_mem_append, List.forall_mem_singleton]
    exact ⟨hblanks, by decide⟩
  rw [bytes_cons_of_ascii (by decide), List.cons_append, List.append_cons]
  exact h _ rest hall hrest

/-- What is read of a text is all of it when nothing comes after. -/
theorem whole (h : Reads reader text a) : reader.whole (bytes text) = .ok a := by
  have hrun := h.run ends_nil
  rw [List.append_nil] at hrun
  simp only [Reader.whole, hrun]
  rfl

end Reads

theorem expect_bytes {letters : List Char} (h : ∀ c ∈ letters, c.toNat < 128)
    (rest : List UInt8) : expect letters (bytes letters ++ rest) = .ok rest := by
  induction letters with
  | nil => rfl
  | cons c letters ih =>
    obtain ⟨hc, hletters⟩ := List.forall_mem_cons.mp h
    rw [bytes_cons_of_ascii hc, List.cons_append, expect, if_pos (spells_self hc), ih hletters]

theorem word_bytes {α : Type} {letters : List Char} (h : ∀ c ∈ letters, c.toNat < 128) (a : α)
    (rest : List UInt8) : word letters a (bytes letters ++ rest) = .ok (a, rest) := by
  rw [word, expect_bytes h]
  rfl

theorem reads_mark {c : Char} (hc : IsMark c) : Reads (mark c) [c] () := by
  refine .of_run (fun _ => rfl) hc fun rest _ => ?_
  rw [bytes_nil, List.nil_append, if_pos (spells_self hc.ascii)]

theorem reads_flag (b : Bool) : Reads Reader.flag (printFlag b) b := by
  cases b with
  | false =>
    have hprint : printFlag false = 'f' :: ['a', 'l', 's', 'e'] := by decide
    rw [hprint]
    refine .of_run (fun _ => rfl) ⟨by decide, by decide⟩ fun rest _ => ?_
    rw [if_neg (by decide), if_pos (by decide)]
    exact word_bytes (by simp) false rest
  | true =>
    have hprint : printFlag true = 't' :: ['r', 'u', 'e'] := by decide
    rw [hprint]
    refine .of_run (fun _ => rfl) ⟨by decide, by decide⟩ fun rest _ => ?_
    rw [if_pos (by decide)]
    exact word_bytes (by simp) true rest

end NativeBridge.Json
