import NativeBridge.Json.Record
import NativeBridge.Proofs.Json.Literal

/-! # Brackets read back

What stands in a bracket is read item by item, and every item takes the state that the items before
it left to the next one. A list is read back when each of its elements is. A record is read back
when each member fills a field of the draft that was empty, and the last draft makes the record.
-/

namespace NativeBridge.Json

open Text (bytes bytes_nil bytes_append bytes_cons_of_ascii bytes_eq_map)

variable {σ : Type}

/-- Whether items that are read from these texts, one after the other, take a state to another. -/
inductive Steps (item : σ → Reader σ) : σ → List (List Char) → σ → Prop
  | nil (state : σ) : Steps item state [] state
  | cons {state next final : σ} {text : List Char} {texts : List (List Char)}
      (h : Reads (item state) text next) (hrest : Steps item next texts final) :
      Steps item state (text :: texts) final

def Begins (close : Char) (text : List Char) : Prop :=
  ∃ c r, text = c :: r ∧ IsMark c ∧ c ≠ close

def printRest (close : Char) (depth : Nat) (others : List (List Char)) : List Char :=
  others.flatMap (fun text => ',' :: (newLine (depth + 1) ++ text)) ++ (newLine depth ++ [close])

def printInside (close : Char) (depth : Nat) : List (List Char) → List Char
  | [] => [close]
  | first :: others => newLine (depth + 1) ++ (first ++ printRest close depth others)

theorem printItems_cons (depth : Nat) (first : List Char) (others : List (List Char)) :
    printItems depth (first :: others) =
      newLine depth ++ (first ++ others.flatMap fun text => ',' :: (newLine depth ++ text)) := by
  induction others generalizing first with
  | nil => rw [printItems, List.flatMap_nil, List.append_nil]
  | cons second others ih =>
    rw [printItems, ih, List.flatMap_cons, List.append_assoc, List.cons_append, List.append_assoc]

theorem printBracket_eq (opening close : Char) (depth : Nat) (texts : List (List Char)) :
    printBracket opening close depth texts = opening :: printInside close depth texts := by
  cases texts with
  | nil => rfl
  | cons first others =>
    rw [printBracket, printItems_cons, printInside, printRest]
    · simp only [List.cons_append, List.append_assoc]
    · simp

theorem printRest_cons (close : Char) (depth : Nat) (text : List Char)
    (texts : List (List Char)) : printRest close depth (text :: texts) =
      ',' :: (newLine (depth + 1) ++ (text ++ printRest close depth texts)) := by
  simp only [printRest, List.flatMap_cons, List.cons_append, List.append_assoc]

theorem stops_printRest (close : Char) (depth : Nat) (others : List (List Char)) :
    Stops (printRest close depth others) := by
  cases others with
  | nil => exact stops_cons (by decide) (by decide) _
  | cons text texts =>
    rw [printRest_cons]
    exact stops_cons (by decide) (by decide) _

theorem isBlank_of_mem_newLine (depth : Nat) : ∀ b ∈ bytes (newLine depth), isBlank b = true := by
  have hchars : ∀ c ∈ newLine depth, c = '\n' ∨ c = ' ' := by
    intro c hc
    rcases List.mem_cons.mp hc with rfl | hc
    · exact .inl rfl
    · exact .inr (List.eq_of_mem_replicate hc)
  have hascii : ∀ c ∈ newLine depth, c.toNat < 128 := by
    intro c hc
    rcases hchars c hc with rfl | rfl <;> decide
  rw [bytes_eq_map hascii]
  intro b hb
  obtain ⟨c, hc, rfl⟩ := List.mem_map.mp hb
  rcases hchars c hc with rfl | rfl <;> decide

section Items

variable {close : Char} {item : σ → Reader σ} {isFirst : Bool} {state next final : σ}
  {s r rest : List UInt8} {b : UInt8}

/-- One round of reading items, at the first byte after blanks. -/
theorem readItems_round (hs : skipBlanks s = b :: r) :
    readItems close item isFirst state s =
      if spells close b then .ok (state, r)
      else if isFirst || spells ',' b then do
        let (next, rest) ← (item state).run (if isFirst then b :: r else r)
        readItems close item false next rest
      else .error .badSyntax := by
  rw [readItems]
  split
  · next heq =>
    rw [hs] at heq
    cases heq
  · next heq =>
    rw [hs] at heq
    cases heq
    -- the rounds differ in the equation that the recursion keeps for its measure
    congr 2
    split
    · next hitem =>
      simp only [hitem]
      rfl
    · next hitem =>
      simp only [hitem]
      rfl

theorem readItems_close (hs : skipBlanks s = b :: r) (hb : spells close b = true) :
    readItems close item isFirst state s = .ok (state, r) := by
  rw [readItems_round hs, if_pos hb]

theorem readItems_item (hs : skipBlanks s = b :: r) (hb : spells close b = false)
    (hstart : (isFirst || spells ',' b) = true)
    (hitem : (item state).run (if isFirst then b :: r else r) = .ok (next, rest)) :
    readItems close item isFirst state s = readItems close item false next rest := by
  rw [readItems_round hs, if_neg (by simp [hb]), if_pos hstart, hitem]
  rfl

theorem readItems_mark (hclose : IsMark close) (rest : List UInt8) {blanks : List UInt8}
    (hblanks : ∀ b ∈ blanks, isBlank b = true) :
    readItems close item isFirst state (blanks ++ (bytes [close] ++ rest)) =
      .ok (state, rest) := by
  have hskip : skipBlanks (blanks ++ (bytes [close] ++ rest)) = close.toUInt8 :: rest := by
    rw [skipBlanks_append hblanks, bytes_cons_of_ascii hclose.ascii, bytes_nil, List.cons_append,
      skipBlanks_cons hclose.not_blank, List.nil_append]
  exact readItems_close hskip (spells_self hclose.ascii)

/-- The items after the first one are read up to the end of the bracket. -/
theorem readItems_printRest (hclose : IsMark close) (hcomma : close ≠ ',')
    {others : List (List Char)} (h : Steps item state others final) (depth : Nat)
    (rest : List UInt8) :
    readItems close item false state (bytes (printRest close depth others) ++ rest) =
      .ok (final, rest) := by
  induction h with
  | nil state =>
    rw [printRest, List.flatMap_nil, List.nil_append, bytes_append, List.append_assoc]
    exact readItems_mark hclose rest (isBlank_of_mem_newLine depth)
  | @cons state next final text texts h _ ih =>
    have hblanks := isBlank_of_mem_newLine (depth + 1)
    have hitem := h _ _ hblanks (stops_printRest close depth texts rest)
    have hopen : spells close ','.toUInt8 = false :=
      spells_eq_false hclose.ascii (by decide) hcomma
    rw [printRest_cons, bytes_cons_of_ascii (by decide), bytes_append, bytes_append,
      List.cons_append, List.append_assoc, List.append_assoc,
      readItems_item (skipBlanks_cons (by decide) _) hopen (by decide) hitem, ih]

/-- The items of a bracket are read from after its opening on. -/
theorem readItems_printInside (hclose : IsMark close) (hcomma : close ≠ ',')
    {texts : List (List Char)} (hbegins : ∀ text ∈ texts.head?, Begins close text)
    (h : Steps item state texts final) (depth : Nat) (rest : List UInt8) :
    readItems close item true state (bytes (printInside close depth texts) ++ rest) =
      .ok (final, rest) := by
  cases h with
  | nil => exact readItems_mark hclose rest (List.forall_mem_nil _)
  | @cons _ next _ text texts h hrest =>
    obtain ⟨c, r, rfl, hc, hne⟩ := hbegins text rfl
    have hitem := h.run_cons hc.ascii (stops_printRest close depth texts rest)
    have hskip : skipBlanks (bytes (printInside close depth ((c :: r) :: texts)) ++ rest) =
        c.toUInt8 :: (bytes r ++ (bytes (printRest close depth texts) ++ rest)) := by
      rw [printInside, bytes_append, List.append_assoc,
        skipBlanks_append (isBlank_of_mem_newLine (depth + 1)), bytes_append,
        bytes_cons_of_ascii hc.ascii, List.append_assoc, List.cons_append,
        skipBlanks_cons hc.not_blank]
    have hopen : spells close c.toUInt8 = false :=
      spells_eq_false hclose.ascii hc.ascii hne.symm
    rw [readItems_item hskip hopen rfl hitem, readItems_printRest hclose hcomma hrest]

end Items

section List

variable {α : Type} {reader : Reader α} {print : α → List Char}

theorem steps_list {as : List α} (h : ∀ a ∈ as, Reads reader (print a) a) (before : List α) :
    Steps (fun before => reader.map (· :: before)) before (as.map print)
      (as.reverse ++ before) := by
  induction as generalizing before with
  | nil => exact .nil before
  | cons a as ih =>
    obtain ⟨ha, has⟩ := List.forall_mem_cons.mp h
    rw [List.map_cons, List.reverse_cons, List.append_assoc, List.singleton_append]
    exact .cons (ha.map _) (ih has (a :: before))

/-- A list is read back when its elements are. -/
theorem reads_list {as : List α} (h : ∀ a ∈ as, Reads reader (print a) a)
    (hbegins : ∀ a ∈ as, Begins ']' (print a)) (depth : Nat) :
    Reads (Reader.list reader) (printBracket '[' ']' depth (as.map print)) as := by
  have hsteps := steps_list h []
  rw [List.append_nil] at hsteps
  have hfirst : ∀ text ∈ (as.map print).head?, Begins ']' text := by
    intro text htext
    obtain ⟨a, ha, rfl⟩ := List.mem_map.mp (List.mem_of_mem_head? htext)
    exact hbegins a ha
  have hread : Reads (Reader.list reader) (printBracket '[' ']' depth (as.map print))
      as.reverse.reverse := by
    rw [printBracket_eq]
    refine Reads.map (.of_run (fun _ => rfl) ⟨by decide, by decide⟩ fun rest _ => ?_) List.reverse
    rw [if_pos (by decide)]
    exact readItems_printInside ⟨by decide, by decide⟩ (by decide) hfirst hsteps depth rest
  rwa [List.reverse_reverse] at hread

end List

section Record

variable {δ ρ : Type} {fields : List (Field δ)} {draft final : δ} {finished? : δ → Option ρ}

theorem begins_printText (s : String) (r : List Char) : Begins '}' (printText s ++ r) :=
  ⟨'"', _, rfl, isMark_quote, by decide⟩

theorem begins_printBracket {close : Char} (hclose : '{' ≠ close) (depth : Nat)
    (texts : List (List Char)) : Begins close (printBracket '{' '}' depth texts) :=
  ⟨'{', _, printBracket_eq '{' '}' depth texts, ⟨by decide, by decide⟩, hclose⟩

/-- A member is read back into the field of its name. -/
theorem reads_member {name : String} {field : Field δ} {value : List Char}
    (hfield : fields.find? (·.name == name) = some field) (hempty : field.isFilled draft = false)
    (h : Reads (field.fill draft) value final) :
    Reads (readMember fields draft) (printMember name value) final := by
  refine (reads_key name).andThen ?_ (stops_cons (by decide) (by decide) _)
  simp only [hfield, hempty, Bool.false_eq_true, if_false]
  exact (reads_mark ⟨by decide, by decide⟩).andThen h.blank (stops_cons (by decide) (by decide) _)

/-- A record is read back when its members fill a draft that makes it. -/
theorem reads_record {texts : List (List Char)} {value : ρ}
    (h : Steps (readMember fields) draft texts final)
    (hbegins : ∀ text ∈ texts.head?, Begins '}' text) (hfinished : finished? final = some value)
    (depth : Nat) :
    Reads (Reader.record fields draft finished?) (printBracket '{' '}' depth texts) value := by
  rw [printBracket_eq]
  refine Reads.filterMap (.of_run (fun _ => rfl) ⟨by decide, by decide⟩ fun rest _ => ?_) hfinished
  rw [if_pos (by decide)]
  exact readItems_printInside ⟨by decide, by decide⟩ (by decide) hbegins h depth rest

end Record

end NativeBridge.Json
