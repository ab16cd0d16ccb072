import Mathlib
import NativeBridge.CodePage

/-! # Stubs on pages

A stub that is placed lies behind everything that its page held before, and pages are only filled
further. So what was read at a place is read there ever after, no two places have a byte in common,
and the bytes in use are those of all stubs placed.
-/

namespace NativeBridge

def Place.Disjoint (q q' : Place) : Prop :=
  q.page ≠ q'.page ∨ q.offset + q.length ≤ q'.offset ∨ q'.offset + q'.length ≤ q.offset

theorem Page.bytes_of_append {page page' : Page} {code : List UInt8}
    (h : page.append code = .ok page') : page'.bytes = page.bytes ++ code := by
  unfold append at h
  split at h
  · cases h
  · obtain rfl := Except.ok.inj h
    rfl

namespace Page

theorem length_closeLast (pages : List Page) : (closeLast pages).length = pages.length :=
  List.length_modify _ _ _

theorem getElem?_closeLast (pages : List Page) (k : Nat) : (closeLast pages)[k]? =
    pages[k]?.map fun page => if k + 1 = pages.length then page.close else page := by
  rw [closeLast, List.getElem?_modify]
  cases hk : pages[k]? with
  | none => rfl
  | some page =>
    obtain ⟨hlt, -⟩ := List.getElem?_eq_some_iff.mp hk
    have hlast : pages.length - 1 = k ↔ k + 1 = pages.length := by omega
    simp only [hlast, Option.map_some, Option.map_eq_map]

theorem map_bytes_closeLast (pages : List Page) :
    (closeLast pages).map Page.bytes = pages.map Page.bytes := by
  refine List.ext_getElem? fun k => ?_
  rw [List.getElem?_map, List.getElem?_map, getElem?_closeLast]
  cases pages[k]? with
  | none => rfl
  | some page => split <;> rfl

end Page

namespace Pages

variable {p p' : Pages} {code : List UInt8} {place : Place}

/-- The filled part of a page, which is nothing if there is no such page. -/
def filled (p : Pages) (k : Nat) : List UInt8 :=
  (p.pages[k]?.map Page.bytes).getD []

theorem read_eq (p : Pages) (place : Place) :
    p.read place = ((p.filled place.page).drop place.offset).take place.length := by
  unfold read filled
  cases p.pages[place.page]? with
  | none => simp
  | some page => rfl

theorem filled_concat (size : Nat) (earlier : List Page) (last : Page) (k : Nat) :
    (⟨size, earlier ++ [last]⟩ : Pages).filled k =
      if k = earlier.length then last.bytes else (⟨size, earlier⟩ : Pages).filled k := by
  unfold filled
  rcases Nat.lt_trichotomy k earlier.length with hk | rfl | hk
  · rw [if_neg (Nat.ne_of_lt hk), List.getElem?_append_left hk]
  · rw [if_pos rfl, List.getElem?_concat_length]
    rfl
  · rw [if_neg (Nat.ne_of_gt hk), List.getElem?_eq_none (by simp; omega),
      List.getElem?_eq_none (Nat.le_of_lt hk)]

theorem filled_closeLast (size : Nat) (pages : List Page) (k : Nat) :
    (⟨size, Page.closeLast pages⟩ : Pages).filled k = (⟨size, pages⟩ : Pages).filled k := by
  unfold filled
  rw [← List.getElem?_map, Page.map_bytes_closeLast, List.getElem?_map]

/-- What it means that code was placed on pages. -/
structure Installed (p : Pages) (code : List UInt8) (place : Place) (p' : Pages) : Prop where
  offset : place.offset = (p.filled place.page).length
  length : place.length = code.length
  here : p'.filled place.page = p.filled place.page ++ code
  elsewhere : ∀ k ≠ place.page, p'.filled k = p.filled k
  bytes : p'.pages.flatMap Page.bytes = p.pages.flatMap Page.bytes ++ code

/-- Code that is put behind the bytes of the last page is placed there, if this page and the ones
before it hold what there was. -/
theorem installed_of_concat {size : Nat} {earlier : List Page} {page page' : Page}
    (hfilled : ∀ k, p.filled k = (⟨size, earlier ++ [page]⟩ : Pages).filled k)
    (hbytes : p.pages.flatMap Page.bytes = (earlier ++ [page]).flatMap Page.bytes)
    (happend : page.append code = .ok page') :
    Installed p code ⟨earlier.length, page.used, code.length⟩ ⟨size, earlier ++ [page']⟩ := by
  have hpage := Page.bytes_of_append happend
  have hlast : p.filled earlier.length = page.bytes := by rw [hfilled, filled_concat, if_pos rfl]
  refine ⟨by rw [hlast]; rfl, rfl, ?_, fun k hk => ?_, ?_⟩
  · rw [filled_concat, if_pos rfl, hlast, hpage]
  · rw [hfilled, filled_concat, filled_concat, if_neg hk, if_neg hk]
  · simp [hbytes, hpage]

theorem installed_of_fresh {size : Nat} {pages : List Page} {page page' : Page}
    (hpage : page.bytes = []) (happend : page.append code = .ok page') :
    Installed ⟨size, pages⟩ code ⟨pages.length, 0, code.length⟩
      ⟨size, Page.closeLast pages ++ [page']⟩ := by
  have hlength := Page.length_closeLast pages
  have hused : page.used = 0 := by rw [Page.used, hpage]; rfl
  rw [← hlength, ← hused]
  refine installed_of_concat (fun k => ?_) ?_ happend
  · rw [filled_concat, filled_closeLast]
    split
    · next hk =>
      rw [filled, hpage, List.getElem?_eq_none (Nat.le_of_eq (hk.trans hlength).symm)]
      rfl
    · rfl
  · rw [List.flatMap_append, List.flatMap_singleton, hpage, List.append_nil, List.flatMap_def,
      List.flatMap_def, Page.map_bytes_closeLast]

/-- How code is placed: on the last page, if that has room, and else on another one, before which
the last one is closed. -/
inductive Installs (p : Pages) (code : List UInt8) : Place → Pages → Prop
  | behind {earlier : List Page} {last : Page} (hpages : p.pages = earlier ++ [last])
      (hroom : code.length ≤ last.remaining) :
      Installs p code ⟨earlier.length, last.used, code.length⟩
        { p with pages := earlier ++ [{ last with bytes := last.bytes ++ code }] }
  | fresh (hfull : ∀ last ∈ p.pages.getLast?, last.remaining < code.length) :
      Installs p code ⟨p.count, 0, code.length⟩
        { p with pages := Page.closeLast p.pages ++ [⟨p.pageSize, code, false⟩] }

theorem exists_installs (hne : code ≠ []) (hfits : code.length ≤ p.pageSize) :
    ∃ place p', p.install code = .ok (place, p') ∧ Installs p code place p' := by
  obtain ⟨size, pages⟩ := p
  have hempty : ¬code.isEmpty = true := by rwa [List.isEmpty_iff]
  unfold install
  rw [if_neg hempty, if_neg (Nat.not_lt_of_le hfits)]
  cases hopen : open? ⟨size, pages⟩ code.length with
  | some last =>
    obtain ⟨hlast, hroom⟩ := Option.filter_eq_some_iff.mp hopen
    obtain ⟨earlier, rfl⟩ := List.getLast?_eq_some_iff.mp hlast
    rw [decide_eq_true_eq] at hroom
    have happend : last.append code = .ok { last with bytes := last.bytes ++ code } :=
      if_neg (Nat.not_lt_of_le hroom)
    have hplaces : Installs ⟨size, earlier ++ [last]⟩ code _ _ := .behind rfl hroom
    refine ⟨_, _, by simp only [happend]; rfl, ?_⟩
    simpa [count] using hplaces
  | none =>
    have hfull : ∀ last ∈ pages.getLast?, last.remaining < code.length := by
      intro last hlast
      have hroom := Option.filter_eq_none_iff.mp hopen last hlast
      simpa using hroom
    have hsize : size ≠ 0 := by
      have hpos := List.length_pos_iff.mpr hne
      rintro rfl
      exact absurd hfits (Nat.not_le_of_lt hpos)
    have hmap : Page.map size = .ok ⟨size, [], false⟩ := if_neg hsize
    have happend : (⟨size, [], false⟩ : Page).append code = .ok ⟨size, code, false⟩ :=
      if_neg (Nat.not_lt_of_le hfits)
    refine ⟨_, _, ?_, .fresh hfull⟩
    rw [hmap]
    change (Page.append ⟨size, [], false⟩ code >>= _) = _
    rw [happend]
    rfl

theorem fits_of_install (h : p.install code = .ok (place, p')) :
    code ≠ [] ∧ code.length ≤ p.pageSize := by
  unfold install at h
  split at h
  · cases h
  · next hne =>
    split at h
    · cases h
    · next hfits => exact ⟨by simpa using hne, Nat.le_of_not_lt hfits⟩

theorem installs_of_install (h : p.install code = .ok (place, p')) :
    Installs p code place p' := by
  obtain ⟨hne, hfits⟩ := fits_of_install h
  obtain ⟨place', p'', h', hinstalls⟩ := exists_installs hne hfits
  obtain ⟨rfl, rfl⟩ := Prod.mk.inj (Except.ok.inj (h.symm.trans h'))
  exact hinstalls

theorem Installs.installed (h : Installs p code place p') (hfits : code.length ≤ p.pageSize) :
    Installed p code place p' := by
  obtain ⟨size, pages⟩ := p
  cases h with
  | @behind earlier last hpages hroom =>
    obtain rfl := hpages
    exact installed_of_concat (fun _ => rfl) rfl (if_neg (Nat.not_lt_of_le hroom))
  | fresh hfull =>
    have happend : (⟨size, [], false⟩ : Page).append code = .ok ⟨size, code, false⟩ :=
      if_neg (Nat.not_lt_of_le hfits)
    exact installed_of_fresh rfl happend

theorem installed_of_install (h : p.install code = .ok (place, p')) : Installed p code place p' :=
  (installs_of_install h).installed (fits_of_install h).2

theorem Installed.filled_prefix (h : Installed p code place p') (k : Nat) :
    p.filled k <+: p'.filled k := by
  by_cases hk : k = place.page
  · rw [hk, h.here]
    exact List.prefix_append _ _
  · exact (h.elsewhere k hk).symm ▸ List.prefix_refl _

theorem Installed.inside (h : Installed p code place p') :
    place.offset + place.length = (p'.filled place.page).length := by
  rw [h.here, List.length_append, h.offset, h.length]

theorem Installed.read_eq (h : Installed p code place p') : p'.read place = code := by
  rw [Pages.read_eq, h.here, h.offset, List.drop_left, h.length, List.take_length]

/-- What lies inside the filled part of a page is read there however far the page is filled. -/
theorem read_of_prefix (h : p.filled place.page <+: p'.filled place.page)
    (hinside : place.offset + place.length ≤ (p.filled place.page).length) :
    p'.read place = p.read place := by
  obtain ⟨more, hmore⟩ := h
  rw [read_eq, read_eq, ← hmore, List.drop_append_of_le_length (by omega),
    List.take_append_of_le_length (by rw [List.length_drop]; omega)]

/-- Stubs on pages: where they lie, in the order in which they were placed. -/
structure Laid (p : Pages) (places : List Place) : Prop where
  inside : ∀ q ∈ places, q.offset + q.length ≤ (p.filled q.page).length
  disjoint : places.Pairwise Place.Disjoint
  bytesUsed : p.bytesUsed = (places.map Place.length).sum

theorem laid_empty (size : Nat) : Laid (.empty size) [] where
  inside := fun _ h => absurd h List.not_mem_nil
  disjoint := .nil
  bytesUsed := rfl

theorem Laid.install {places : List Place} (h : Laid p places)
    (hinstall : Installed p code place p') : Laid p' (places ++ [place]) where
  inside := by
    rw [List.forall_mem_append, List.forall_mem_singleton]
    refine ⟨fun q hq => ?_, Nat.le_of_eq hinstall.inside⟩
    exact Nat.le_trans (h.inside q hq) (hinstall.filled_prefix q.page).length_le
  disjoint := by
    rw [List.pairwise_append]
    refine ⟨h.disjoint, List.pairwise_singleton _ _, fun q hq q' hq' => ?_⟩
    obtain rfl := List.mem_singleton.mp hq'
    by_cases hpage : q.page = q'.page
    · refine .inr (.inl ?_)
      rw [hinstall.offset, ← hpage]
      exact h.inside q hq
    · exact .inl hpage
  bytesUsed := by
    rw [Pages.bytesUsed, hinstall.bytes, List.length_append, List.map_append, List.sum_append,
      ← h.bytesUsed, Pages.bytesUsed]
    simp [hinstall.length]

end Pages

end NativeBridge
