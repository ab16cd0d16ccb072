import NativeBridge.Proofs.CodePage

/-! # How pages are filled

Stubs that are installed one after the other lie one behind the other, from the front of the first
page on. A page is left for the next one only when it has no room, and is then sealed for good.
-/

namespace NativeBridge

/-- Which place comes next: right behind, or at the front of the next page if that is too short. -/
inductive Place.Next (size : Nat) (q : Place) : Place → Prop
  | behind {length : Nat} (h : q.offset + q.length + length ≤ size) :
      Next size q ⟨q.page, q.offset + q.length, length⟩
  | fresh {length : Nat} (h : size < q.offset + q.length + length) :
      Next size q ⟨q.page + 1, 0, length⟩

namespace Pages

/-- Pages and the stubs that were placed on them, in order. -/
structure Ledger where
  pages : Pages
  stubs : List (Place × List UInt8)

namespace Ledger

/-- The ledger after an install, which a refused stub leaves as it was. -/
def install (l : Ledger) (code : List UInt8) : Ledger :=
  match l.pages.install code with
  | .ok (place, pages) => ⟨pages, l.stubs ++ [(place, code)]⟩
  | .error _ => l

def places (l : Ledger) : List Place :=
  l.stubs.map Prod.fst

def content (l : Ledger) (k : Nat) : List UInt8 :=
  (l.stubs.filter (·.1.page = k)).flatMap Prod.snd

theorem places_snoc (p : Pages) (stubs : List (Place × List UInt8)) (s : Place × List UInt8) :
    (⟨p, stubs ++ [s]⟩ : Ledger).places = (⟨p, stubs⟩ : Ledger).places ++ [s.1] :=
  List.map_append

theorem content_snoc (p p' : Pages) (stubs : List (Place × List UInt8)) (s : Place × List UInt8)
    (k : Nat) : (⟨p', stubs ++ [s]⟩ : Ledger).content k =
      (⟨p, stubs⟩ : Ledger).content k ++ if s.1.page = k then s.2 else [] := by
  unfold content
  rw [List.filter_append, List.flatMap_append]
  by_cases h : s.1.page = k <;> simp [h]

end Ledger

def filling (size : Nat) (codes : List (List UInt8)) : Ledger :=
  codes.foldl Ledger.install ⟨.empty size, []⟩

/-- Whether code is neither empty nor longer than a page. -/
def Fits (size : Nat) (code : List UInt8) : Prop :=
  code ≠ [] ∧ code.length ≤ size

instance (size : Nat) (code : List UInt8) : Decidable (Fits size code) :=
  instDecidableAnd

/-- What is known of a page in use. -/
structure InUse (size : Nat) (content : List UInt8) (isLast : Prop) (page : Page) : Prop where
  capacity : page.capacity = size
  bytes : page.bytes = content
  used_pos : 0 < page.used
  used_le : page.used ≤ size
  isSealed_iff : page.isSealed = true ↔ ¬isLast

/-- Pages that are filled from front to back. -/
structure Filled (size : Nat) (l : Ledger) : Prop where
  pageSize : l.pages.pageSize = size
  page : ∀ k page, l.pages.pages[k]? = some page →
    InUse size (l.content k) (k + 1 = l.pages.count) page
  count : l.pages.count = (l.places.getLast?.map (·.page + 1)).getD 0
  used : ∀ page ∈ l.pages.pages.getLast?, ∀ q ∈ l.places.getLast?, page.used = q.offset + q.length
  first : ∀ q ∈ l.places.head?, q.page = 0 ∧ q.offset = 0
  next : l.places.IsChain (Place.Next size)
  laid : Laid l.pages l.places
  read : ∀ s ∈ l.stubs, l.pages.read s.1 = s.2

section Step

variable {size : Nat} {l : Ledger} {p p' : Pages} {code : List UInt8} {place : Place}

theorem count_of_concat {earlier : List Page} {last : Page} (h : p.pages = earlier ++ [last]) :
    p.count = earlier.length + 1 := by
  rw [count, h, List.length_append, List.length_singleton]

theorem getElem?_concat_eq_some_iff {earlier : List Page} {last page : Page} {k : Nat} :
    (earlier ++ [last])[k]? = some page ↔
      earlier[k]? = some page ∨ k = earlier.length ∧ last = page := by
  rcases Nat.lt_trichotomy k earlier.length with hk | rfl | hk
  · simp [List.getElem?_append_left hk, Nat.ne_of_lt hk]
  · simp
  · have hend : (earlier ++ [last])[k]? = none := List.getElem?_eq_none (by simpa using hk)
    simp [hend, List.getElem?_eq_none hk.le, Nat.ne_of_gt hk]

theorem filled_empty (size : Nat) : Filled size ⟨.empty size, []⟩ where
  pageSize := rfl
  page := fun _ _ h => by cases h
  count := rfl
  used := fun _ h => by cases h
  first := fun _ h => by cases h
  next := .nil
  laid := laid_empty size
  read := fun _ h => absurd h List.not_mem_nil

namespace Installs

theorem pageSize (h : Installs p code place p') : p'.pageSize = p.pageSize := by
  cases h <;> rfl

theorem count (h : Installs p code place p') : p'.count = place.page + 1 := by
  cases h <;> simp [Pages.count, Page.length_closeLast]

theorem used (h : Installs p code place p') :
    ∀ page ∈ p'.pages.getLast?, page.used = place.offset + place.length := by
  cases h <;> simp [Page.used]

/-- A sealed page stays as it is. -/
theorem getElem?_of_isSealed (h : Installs p code place p') (hne : code ≠ []) {k : Nat}
    {page : Page} (hpage : p.pages[k]? = some page) (hsealed : page.isSealed = true) :
    p'.pages[k]? = some page := by
  cases h with
  | @behind earlier last hpages hroom =>
    rw [hpages, getElem?_concat_eq_some_iff] at hpage
    rcases hpage with hearlier | ⟨-, rfl⟩
    · exact getElem?_concat_eq_some_iff.mpr (.inl hearlier)
    · -- the last page has no room for anything once it is sealed
      rw [Page.remaining, if_pos hsealed, Nat.le_zero] at hroom
      exact absurd (List.length_eq_zero_iff.mp hroom) hne
  | fresh hfull =>
    have hclosed : page.close = page := by rw [Page.close, ← hsealed]
    refine getElem?_concat_eq_some_iff.mpr (.inl ?_)
    rw [Page.getElem?_closeLast, hpage, Option.map_some, hclosed, ite_self]

end Installs

namespace Filled

theorem content_eq_nil (h : Filled size l) {k : Nat} (hk : l.pages.count ≤ k) :
    l.content k = [] := by
  refine List.flatMap_eq_nil_iff.mpr fun s hs => ?_
  obtain ⟨hmem, hpage⟩ := List.mem_filter.mp hs
  rw [← h.read s hmem, Pages.read, List.getElem?_eq_none]
  rw [decide_eq_true_eq] at hpage
  exact hpage ▸ hk

/-- The last page ends where its last stub does. -/
theorem last_place (h : Filled size l) {earlier : List Page} {last : Page}
    (hpages : l.pages.pages = earlier ++ [last]) : ∃ q, l.places.getLast? = some q ∧
      q.page = earlier.length ∧ last.used = q.offset + q.length ∧ last.used ≤ size ∧
        last.remaining = size - last.used := by
  have hlast : l.pages.pages[earlier.length]? = some last := by
    rw [hpages, List.getElem?_concat_length]
  have hcount := count_of_concat hpages
  have hinUse := h.page _ _ hlast
  have hopen : last.isSealed = false := by
    rw [← Bool.not_eq_true, hinUse.isSealed_iff, not_not]
    exact hcount.symm
  cases hq : l.places.getLast? with
  | none =>
    rw [h.count, hq] at hcount
    cases hcount
  | some q =>
    rw [h.count, hq] at hcount
    refine ⟨q, rfl, Nat.succ.inj hcount, h.used last ?_ q hq, hinUse.used_le, ?_⟩
    · rw [hpages, List.getLast?_concat]
      rfl
    · rw [Page.remaining, hopen, hinUse.capacity]
      rfl

/-- A stub comes next after the last one, or is the first. -/
theorem place_cases (h : Filled size l) (hinstalls : Installs l.pages code place p') :
    (l.places = [] ∧ place.page = 0 ∧ place.offset = 0) ∨
      ∃ q, l.places.getLast? = some q ∧ q.Next size place := by
  cases hinstalls with
  | @behind earlier last hpages hroom =>
    obtain ⟨q, hq, hpage, hused, hle, hremaining⟩ := h.last_place hpages
    refine .inr ⟨q, hq, ?_⟩
    rw [← hpage, hused]
    exact .behind (by omega)
  | fresh hfull =>
    rcases List.eq_nil_or_concat l.pages.pages with hpages | ⟨earlier, last, hpages⟩
    · have hcount : l.pages.count = 0 := by rw [Pages.count, hpages]; rfl
      refine .inl ⟨?_, hcount, rfl⟩
      rw [← List.getLast?_eq_none_iff]
      cases hq : l.places.getLast? with
      | none => rfl
      | some q =>
        rw [h.count, hq] at hcount
        cases hcount
    · rw [List.concat_eq_append] at hpages
      obtain ⟨q, hq, hpage, hused, hle, hremaining⟩ := h.last_place hpages
      have hroom := hfull last (by rw [hpages, List.getLast?_concat]; rfl)
      have hcount := count_of_concat hpages
      refine .inr ⟨q, hq, ?_⟩
      rw [hcount, ← hpage]
      exact .fresh (by omega)

/-- Once the last page is closed, all of them are. -/
theorem page_closeLast (h : Filled size l) {k : Nat} {page : Page}
    (hpage : (Page.closeLast l.pages.pages)[k]? = some page) :
    InUse size (l.content k) (k + 1 = l.pages.count + 1) page := by
  rw [Page.getElem?_closeLast, Option.map_eq_some_iff] at hpage
  obtain ⟨before, hbefore, rfl⟩ := hpage
  have hk : k < l.pages.count := (List.getElem?_eq_some_iff.mp hbefore).1
  have hnotLast : ¬k + 1 = l.pages.count + 1 := by omega
  have hinUse := h.page k before hbefore
  split
  · exact ⟨hinUse.capacity, hinUse.bytes, hinUse.used_pos, hinUse.used_le, iff_of_true rfl hnotLast⟩
  · next hearlier =>
    exact ⟨hinUse.capacity, hinUse.bytes, hinUse.used_pos, hinUse.used_le,
      iff_of_true (hinUse.isSealed_iff.mpr hearlier) hnotLast⟩

/-- The pages in use stay in use, and the one that the stub is on holds it behind the others. -/
theorem page_install (h : Filled size l) (hfits : Fits size code)
    (hinstalls : Installs l.pages code place p') {k : Nat} {page : Page}
    (hpage : p'.pages[k]? = some page) :
    InUse size ((⟨p', l.stubs ++ [(place, code)]⟩ : Ledger).content k) (k + 1 = p'.count) page := by
  have hpos := List.length_pos_iff.mpr hfits.1
  rw [Ledger.content_snoc l.pages, hinstalls.count]
  cases hinstalls with
  | @behind earlier last hpages hroom =>
    rw [← count_of_concat hpages]
    rcases getElem?_concat_eq_some_iff.mp hpage with hearlier | ⟨rfl, rfl⟩
    · have hk : k < earlier.length := (List.getElem?_eq_some_iff.mp hearlier).1
      rw [if_neg (Nat.ne_of_gt hk), List.append_nil]
      refine h.page k page ?_
      rw [hpages]
      exact getElem?_concat_eq_some_iff.mpr (.inl hearlier)
    · obtain ⟨-, -, -, -, hle, hremaining⟩ := h.last_place hpages
      have hlast := h.page earlier.length last (by rw [hpages, List.getElem?_concat_length])
      refine ⟨hlast.capacity, ?_, ?_, ?_, hlast.isSealed_iff⟩
      · rw [if_pos rfl, ← hlast.bytes]
      · rw [Page.used, List.length_append]
        omega
      · rw [Page.used] at hle hremaining
        rw [Page.used, List.length_append]
        omega
  | fresh hfull =>
    -- the page before is closed now and no longer the last, and nothing was on the new one
    have hlength : (Page.closeLast l.pages.pages).length = l.pages.count := Page.length_closeLast _
    rcases getElem?_concat_eq_some_iff.mp hpage with hearlier | ⟨rfl, rfl⟩
    · have hk : k < l.pages.count := by
        rw [← hlength]
        exact (List.getElem?_eq_some_iff.mp hearlier).1
      rw [if_neg (Nat.ne_of_gt hk), List.append_nil]
      exact h.page_closeLast hearlier
    · rw [hlength, h.content_eq_nil le_rfl, if_pos rfl]
      exact ⟨h.pageSize, rfl, hpos, hfits.2, iff_of_false Bool.false_ne_true (by simp)⟩

theorem install (h : Filled size l) (hfits : Fits size code)
    (hinstalls : Installs l.pages code place p') :
    Filled size ⟨p', l.stubs ++ [(place, code)]⟩ := by
  have hinstalled := hinstalls.installed (h.pageSize ▸ hfits.2)
  have hplaces : (⟨p', l.stubs ++ [(place, code)]⟩ : Ledger).places = l.places ++ [place] :=
    Ledger.places_snoc ..
  refine ⟨hinstalls.pageSize.trans h.pageSize, fun k page => h.page_install hfits hinstalls,
    ?_, ?_, ?_, ?_, ?_, ?_⟩
  · rw [hplaces, List.getLast?_concat]
    exact hinstalls.count
  · rw [hplaces, List.getLast?_concat]
    rintro page hpage _ ⟨⟩
    exact hinstalls.used page hpage
  · rw [hplaces]
    rcases h.place_cases hinstalls with ⟨hnone, hpage, hoffset⟩ | ⟨q, hq, -⟩
    · rw [hnone]
      rintro _ ⟨⟩
      exact ⟨hpage, hoffset⟩
    · rw [List.head?_append_of_ne_nil _ (List.ne_nil_of_mem (List.mem_of_getLast? hq))]
      exact h.first
  · rw [hplaces, List.isChain_append]
    refine ⟨h.next, .singleton _, ?_⟩
    rintro q hq _ ⟨⟩
    rcases h.place_cases hinstalls with ⟨hnone, -, -⟩ | ⟨q', hq', hnext⟩
    · rw [hnone] at hq
      cases hq
    · obtain rfl := Option.some.inj (hq.symm.trans hq')
      exact hnext
  · rw [hplaces]
    exact h.laid.install hinstalled
  · rw [List.forall_mem_append, List.forall_mem_singleton]
    refine ⟨fun s hs => ?_, hinstalled.read_eq⟩
    have hinside := h.laid.inside s.1 (List.mem_map_of_mem hs)
    have hsame := read_of_prefix (hinstalled.filled_prefix _) hinside
    exact hsame.trans (h.read s hs)

end Filled

end Step

/-- What no further install changes. -/
structure Kept (l l' : Ledger) : Prop where
  stubs : l.stubs <+: l'.stubs
  closed : ∀ (k : Nat) (page : Page), l.pages.pages[k]? = some page → page.isSealed = true →
    l'.pages.pages[k]? = some page

section Run

variable {size : Nat} {l l' l'' : Ledger} {code : List UInt8}

theorem Kept.refl (l : Ledger) : Kept l l :=
  ⟨List.prefix_refl _, fun _ _ h _ => h⟩

theorem Kept.trans (h : Kept l l') (h' : Kept l' l'') : Kept l l'' :=
  ⟨h.stubs.trans h'.stubs, fun k page hpage hsealed =>
    h'.closed k page (h.closed k page hpage hsealed) hsealed⟩

/-- An install is refused for what the code is, whatever there is on the pages. -/
theorem exists_install_error_iff {p : Pages} :
    (∃ defect, p.install code = .error defect) ↔ ¬Fits p.pageSize code := by
  constructor
  · rintro ⟨defect, hrefused⟩ ⟨hne, hfits⟩
    obtain ⟨place, p', h, -⟩ := exists_installs hne hfits
    rw [hrefused] at h
    cases h
  · intro hnot
    cases h : p.install code with
    | error defect => exact ⟨defect, rfl⟩
    | ok placed => exact absurd (fits_of_install h) hnot

theorem Ledger.install_of_not_fits (h : ¬Fits l.pages.pageSize code) : l.install code = l := by
  obtain ⟨defect, hrefused⟩ := exists_install_error_iff.mpr h
  rw [Ledger.install, hrefused]

theorem Ledger.install_of_fits (h : Fits l.pages.pageSize code) :
    ∃ place p', Installs l.pages code place p' ∧
      l.install code = ⟨p', l.stubs ++ [(place, code)]⟩ := by
  obtain ⟨place, p', hinstall, hinstalls⟩ := exists_installs h.1 h.2
  exact ⟨place, p', hinstalls, by rw [Ledger.install, hinstall]⟩

namespace Filled

/-- An install places one stub more or leaves everything as it was. -/
theorem ledger_install (h : Filled size l) (code : List UInt8) :
    Filled size (l.install code) ∧ Kept l (l.install code) ∧
      (l.install code).stubs.map Prod.snd = l.stubs.map Prod.snd ++ [code].filter (Fits size) := by
  by_cases hfits : Fits size code
  · obtain ⟨place, p', hinstalls, heq⟩ := Ledger.install_of_fits (h.pageSize.symm ▸ hfits)
    rw [heq]
    refine ⟨h.install hfits hinstalls, ⟨List.prefix_append _ _, fun k page hpage hsealed => ?_⟩, ?_⟩
    · exact hinstalls.getElem?_of_isSealed hfits.1 hpage hsealed
    · simp [hfits]
  · rw [Ledger.install_of_not_fits (h.pageSize.symm ▸ hfits)]
    exact ⟨h, .refl l, by simp [hfits]⟩

theorem foldl_install (h : Filled size l) (codes : List (List UInt8)) :
    Filled size (codes.foldl Ledger.install l) ∧ Kept l (codes.foldl Ledger.install l) ∧
      (codes.foldl Ledger.install l).stubs.map Prod.snd =
        l.stubs.map Prod.snd ++ codes.filter (Fits size) := by
  induction codes generalizing l with
  | nil => exact ⟨h, .refl l, (List.append_nil _).symm⟩
  | cons code codes ih =>
    obtain ⟨hone, hkept, hstubs⟩ := h.ledger_install code
    obtain ⟨hall, hkept', hstubs'⟩ := ih hone
    refine ⟨hall, hkept.trans hkept', ?_⟩
    rw [List.foldl_cons, hstubs', hstubs, List.append_assoc, ← List.filter_append,
      List.singleton_append]

theorem length_eq (h : Filled size l) {s : Place × List UInt8} (hs : s ∈ l.stubs) :
    s.1.length = s.2.length := by
  have hinside := h.laid.inside s.1 (List.mem_map_of_mem hs)
  rw [← h.read s hs, read_eq, List.length_take, List.length_drop]
  omega

theorem bytesUsed_eq (h : Filled size l) :
    l.pages.bytesUsed = ((l.stubs.map Prod.snd).map List.length).sum := by
  rw [h.laid.bytesUsed, Ledger.places, List.map_map, List.map_map]
  congr 1
  exact List.map_congr_left fun s hs => h.length_eq hs

end Filled

/-- The pages after any installs: filled from front to back with what fits, which every further
install leaves as it is. -/
theorem filling_invariant (size : Nat) (codes : List (List UInt8)) :
    Filled size (filling size codes) ∧
      (filling size codes).stubs.map Prod.snd = codes.filter (Fits size) ∧
      (filling size codes).pages.bytesUsed = ((codes.filter (Fits size)).map List.length).sum ∧
      (∀ code, (∃ defect, (filling size codes).pages.install code = .error defect) ↔
        code = [] ∨ size < code.length) ∧
      (∀ code, code = [] ∨ size < code.length →
        filling size (codes ++ [code]) = filling size codes) ∧
      ∀ more, Kept (filling size codes) (filling size (codes ++ more)) := by
  obtain ⟨hfilled, -, hstubs⟩ := (filled_empty size).foldl_install codes
  change Filled size (filling size codes) at hfilled
  have hnot (code : List UInt8) : ¬Fits size code ↔ code = [] ∨ size < code.length := by
    rw [Fits, not_and_or, not_not, Nat.not_le]
  refine ⟨hfilled, hstubs, ?_, fun code => ?_, fun code hcode => ?_, fun more => ?_⟩
  · rw [hfilled.bytesUsed_eq]
    exact congrArg (fun stubs => (stubs.map List.length).sum) hstubs
  · rw [exists_install_error_iff, hfilled.pageSize, hnot]
  · rw [filling, List.foldl_append]
    exact Ledger.install_of_not_fits (hfilled.pageSize.symm ▸ (hnot code).mpr hcode)
  · rw [filling, filling, List.foldl_append]
    exact (hfilled.foldl_install more).2.1

end Run

end Pages

end NativeBridge
