import Shortcode.Proofs.Anchors

/-!
# Putting a text together again

Segments with markers, written out from left to right, give what a walk through the text writes.
The walk and the segments are compared byte by byte: behind a byte of a literal run, the rest of
that run is a literal run again.

    rules.renderSegments render source scan.segments d w =
      .ok ((walk slots source.length 0).flatMap (Emission.write source slots)) w'
                                                                    (renderSegments_eq_walk)
-/

namespace Shortcode

/-! ## Pending fragments -/

/-- The text of a pending fragment. -/
def Pending.text (fragments : List Fragment) (p : Pending) : Text :=
  (fragments[p.k]?.map (·.text)).getD []

namespace Fragment

/-- The fragments with their numbers. -/
def numbered (fragments : List Fragment) : List Pending :=
  fragments.mapIdx fun k f => ⟨k, f.anchor⟩

theorem anchor_le_trans (a b c : Pending) (hab : decide (a.anchor ≤ b.anchor) = true)
    (hbc : decide (b.anchor ≤ c.anchor) = true) : decide (a.anchor ≤ c.anchor) = true := by
  rw [decide_eq_true_iff] at hab hbc ⊢
  omega

theorem anchor_le_total (a b : Pending) :
    (decide (a.anchor ≤ b.anchor) || decide (b.anchor ≤ a.anchor)) = true := by
  rw [Bool.or_eq_true, decide_eq_true_iff, decide_eq_true_iff]
  omega

theorem byAnchor_pairwise (fragments : List Fragment) :
    (byAnchor fragments).Pairwise fun a b => a.anchor ≤ b.anchor :=
  (List.pairwise_mergeSort anchor_le_trans anchor_le_total (numbered fragments)).imp
    of_decide_eq_true

theorem byAnchor_perm (fragments : List Fragment) :
    (byAnchor fragments).Perm (numbered fragments) := List.mergeSort_perm _ _

/-- Fragments with one anchor stay in order. -/
theorem byAnchor_filter (fragments : List Fragment) (a : Nat) :
    (byAnchor fragments).filter (·.anchor == a) =
      (numbered fragments).filter (·.anchor == a) := by
  have hpair : ((numbered fragments).filter (·.anchor == a)).Pairwise
      fun p q => decide (p.anchor ≤ q.anchor) = true := by
    refine List.pairwise_of_forall_mem_list fun p hp q hq => decide_eq_true ?_
    have hpa : p.anchor = a := beq_iff_eq.1 (List.mem_filter.1 hp).2
    have hqa : q.anchor = a := beq_iff_eq.1 (List.mem_filter.1 hq).2
    omega
  have hsub := List.sublist_mergeSort anchor_le_trans anchor_le_total hpair List.filter_sublist
  have hsub := hsub.filter (·.anchor == a)
  rw [List.filter_filter] at hsub
  simp only [Bool.and_self] at hsub
  exact (hsub.eq_of_length ((byAnchor_perm fragments).filter _).length_eq.symm).symm

end Fragment

namespace Segment

variable {source : Text} {fragments : List Fragment}

/-! ## Writing segments -/

theorem write_markers (pending : List Pending) (tail : List Segment) (texts : List Text) :
    write source fragments (pending.map (fun p => .marker p.k) ++ tail) texts =
      pending.flatMap (Pending.text fragments) ++ write source fragments tail texts := by
  induction pending with
  | nil => rfl
  | cons p rest ih =>
    rw [List.map_cons, List.cons_append, write, ih, List.flatMap_cons, List.append_assoc]
    rfl

theorem slice_of_le {start stop : Nat} (h : stop ≤ start) :
    (Span.mk start stop).slice source = [] := by
  rw [Span.slice, show (Span.mk start stop).length = 0 from Nat.sub_eq_zero_of_le h,
    List.take_zero]

theorem write_literalRun (start stop : Nat) (tail : List Segment) (texts : List Text) :
    write source fragments (literalRun start stop ++ tail) texts =
      (Span.mk start stop).slice source ++ write source fragments tail texts := by
  unfold literalRun
  split
  · rfl
  · rename_i hle
    rw [slice_of_le (Nat.le_of_not_lt hle)]
    rfl

/-- Without fragments, markers change nothing. -/
theorem write_insertMarkers_nil (segments : List Segment) (texts : List Text) :
    write source fragments (insertMarkers segments []) texts =
      write source fragments segments texts := by
  induction segments generalizing texts with
  | nil => rfl
  | cons s rest ih =>
    cases s with
    | literal span =>
      rw [insertMarkers, splitLiteral, write_literalRun, ih, write]
    | tag o =>
      cases texts with
      | nil => exact ih []
      | cons text texts => exact congrArg (text ++ ·) (ih texts)
    | marker k => exact congrArg (_ ++ ·) (ih texts)

/-! ## One byte of a literal run -/

theorem slice_succ {start stop : Nat} (h : start < stop) :
    (Span.mk start stop).slice source =
      source[start]?.toList ++ (Span.mk (start + 1) stop).slice source := by
  have hlen : (Span.mk start stop).length = (Span.mk (start + 1) stop).length + 1 := by
    show stop - start = stop - (start + 1) + 1
    omega
  rw [Span.slice, Span.slice, List.drop_eq_getElem?_toList_append, hlen]
  cases hb : source[start]? with
  | none =>
    have hle := List.getElem?_eq_none_iff.1 hb
    simp [List.drop_eq_nil_of_le (Nat.le_succ_of_le hle)]
  | some b => rfl

/-- Markers in a literal run are put where the run is split. -/
theorem insertMarkers_literalRun {start stop : Nat} {pending : List Pending}
    (h : ∀ p ∈ pending, start ≤ p.anchor) (tail : List Segment) :
    insertMarkers (literalRun start stop ++ tail) pending =
      (splitLiteral start stop pending).1 ++
        insertMarkers tail (splitLiteral start stop pending).2 := by
  by_cases hlt : start < stop
  · rw [literalRun, if_pos hlt]
    rfl
  · cases pending with
    | nil =>
      rw [splitLiteral, literalRun, if_neg hlt]
      rfl
    | cons p rest =>
      have hp := h p List.mem_cons_self
      rw [splitLiteral, if_neg (by omega), literalRun, if_neg hlt]
      rfl

theorem splitLiteral_of_lt {start stop : Nat} {p : Pending} (h : p.anchor < stop)
    (rest : List Pending) :
    splitLiteral start stop (p :: rest) =
      (literalRun start (max p.anchor start) ++
          .marker p.k :: (splitLiteral (max p.anchor start) stop rest).1,
        (splitLiteral (max p.anchor start) stop rest).2) := by
  rw [splitLiteral, if_pos h]

theorem splitLiteral_of_le {start stop : Nat} {p : Pending} (h : stop ≤ p.anchor)
    (rest : List Pending) :
    splitLiteral start stop (p :: rest) = (literalRun start stop, p :: rest) := by
  rw [splitLiteral, if_neg (Nat.not_lt_of_le h)]

/-- The first byte of a literal run stands behind the markers at its start. -/
theorem write_splitLiteral {start stop : Nat} (h : start < stop) (pending : List Pending) :
    (splitLiteral start stop pending).2 =
        (splitLiteral (start + 1) stop (pending.dropWhile (·.anchor ≤ start))).2 ∧
      ∀ tail texts, write source fragments ((splitLiteral start stop pending).1 ++ tail) texts =
        (pending.takeWhile (·.anchor ≤ start)).flatMap (Pending.text fragments) ++
          (source[start]?.toList ++ write source fragments
            ((splitLiteral (start + 1) stop (pending.dropWhile (·.anchor ≤ start))).1 ++ tail)
            texts) := by
  induction pending with
  | nil =>
    refine ⟨rfl, fun tail texts => ?_⟩
    rw [List.dropWhile_nil, splitLiteral, splitLiteral, write_literalRun, write_literalRun,
      slice_succ h, List.append_assoc]
    rfl
  | cons p rest ih =>
    by_cases hp : p.anchor ≤ start
    · -- the run is not split, only a marker is put
      have hdec : decide (p.anchor ≤ start) = true := decide_eq_true hp
      rw [splitLiteral_of_lt (Nat.lt_of_le_of_lt hp h), Nat.max_eq_right hp,
        List.takeWhile_cons, List.dropWhile_cons, if_pos hdec, if_pos hdec]
      refine ⟨ih.1, fun tail texts => ?_⟩
      rw [List.append_assoc, write_literalRun, slice_of_le (Nat.le_refl _), List.cons_append, write,
        ih.2, List.flatMap_cons, List.append_assoc]
      rfl
    · -- the run is split behind its first byte, or not at all
      have hdec : ¬ decide (p.anchor ≤ start) = true := fun h => hp (of_decide_eq_true h)
      rw [List.takeWhile_cons, List.dropWhile_cons, if_neg hdec, if_neg hdec]
      by_cases hlt : p.anchor < stop
      · rw [splitLiteral_of_lt hlt, splitLiteral_of_lt hlt,
          Nat.max_eq_left (Nat.le_of_not_le hp), Nat.max_eq_left (Nat.lt_of_not_le hp)]
        refine ⟨rfl, fun tail texts => ?_⟩
        rw [List.append_assoc, write_literalRun, List.append_assoc, write_literalRun,
          slice_succ (Nat.lt_of_not_le hp), List.append_assoc]
        rfl
      · have hge : stop ≤ p.anchor := by omega
        rw [splitLiteral_of_le hge, splitLiteral_of_le hge]
        refine ⟨rfl, fun tail texts => ?_⟩
        rw [write_literalRun, write_literalRun, slice_succ h, List.append_assoc]
        rfl

/-! ## Segments against the walk -/

theorem segmentsFrom_cons (hi pos : Nat) (o : Occurrence) (rest : List Occurrence) :
    Scan.segmentsFrom hi pos (o :: rest) =
      literalRun pos o.span.start ++ .tag o :: Scan.segmentsFrom hi o.span.stop rest := by
  rw [Scan.segmentsFrom, literalRun]
  split <;> rfl

/-- In front of the first occurrence, segments start with a literal run. -/
theorem segmentsFrom_of_lt {hi pos : Nat} {os : List Occurrence} (hpos : pos < hi)
    (h : ∀ o ∈ os, pos < o.span.start) :
    ∃ stop tail, pos < stop ∧ Scan.segmentsFrom hi pos os = literalRun pos stop ++ tail ∧
      Scan.segmentsFrom hi (pos + 1) os = literalRun (pos + 1) stop ++ tail := by
  cases os with
  | nil => exact ⟨hi, [], hpos, (List.append_nil _).symm, (List.append_nil _).symm⟩
  | cons o rest =>
    exact ⟨o.span.start, _, h o List.mem_cons_self, segmentsFrom_cons hi pos o rest,
      segmentsFrom_cons hi (pos + 1) o rest⟩

end Segment

/-! ### Sorted fragments -/

namespace Pending

/-- The fragments from `pos` on. -/
def since (pending : List Pending) (pos : Nat) : List Pending :=
  pending.filter fun p => pos ≤ p.anchor

theorem since_of_le {pending : List Pending} {lo pos : Nat} (hlo : lo ≤ pos)
    (h : ∀ p ∈ pending, lo ≤ p.anchor → pos ≤ p.anchor) : since pending lo = since pending pos :=
  List.filter_congr fun p hp => decide_eq_decide.2 ⟨h p hp, fun hle => Nat.le_trans hlo hle⟩

variable {pending : List Pending} (h : pending.Pairwise fun a b => a.anchor ≤ b.anchor)

include h

theorem takeWhile_since (pos : Nat) :
    (since pending pos).takeWhile (·.anchor ≤ pos) = pending.filter (·.anchor == pos) := by
  induction pending with
  | nil => rfl
  | cons p rest ih =>
    obtain ⟨hp, hrest⟩ := List.pairwise_cons.1 h
    have ih := ih hrest
    unfold since at ih ⊢
    rcases Nat.lt_trichotomy p.anchor pos with hlt | heq | hgt
    · rw [List.filter_cons_of_neg (by simpa using hlt), ih,
        List.filter_cons_of_neg (by simp; omega)]
    · rw [List.filter_cons_of_pos (by simp [heq]), List.takeWhile_cons, if_pos (by simp [heq]), ih,
        List.filter_cons_of_pos (by simp [heq])]
    · have hnone : (p :: rest).filter (·.anchor == pos) = [] := by
        apply List.filter_eq_nil_iff.2
        intro q hq
        have hle : p.anchor ≤ q.anchor := by
          rcases List.mem_cons.1 hq with rfl | hq
          · omega
          · exact hp q hq
        simp
        omega
      rw [hnone, List.filter_cons_of_pos (by simp; omega), List.takeWhile_cons,
        if_neg (by simpa using hgt)]

theorem dropWhile_since (pos : Nat) :
    (since pending pos).dropWhile (·.anchor ≤ pos) = since pending (pos + 1) := by
  induction pending with
  | nil => rfl
  | cons p rest ih =>
    obtain ⟨hp, hrest⟩ := List.pairwise_cons.1 h
    have ih := ih hrest
    rcases Nat.lt_trichotomy p.anchor pos with hlt | heq | hgt
    · unfold since at ih ⊢
      rw [List.filter_cons_of_neg (by simpa using hlt), ih,
        List.filter_cons_of_neg (by simp; omega)]
    · unfold since at ih ⊢
      rw [List.filter_cons_of_pos (by simp [heq]), List.dropWhile_cons, if_pos (by simp [heq]), ih,
        List.filter_cons_of_neg (by simp [heq])]
    · have hsince : since rest pos = since rest (pos + 1) :=
        since_of_le (Nat.le_succ pos) fun q hq _ => Nat.le_trans hgt (hp q hq)
      unfold since at hsince ⊢
      rw [List.filter_cons_of_pos (by simp; omega), List.dropWhile_cons,
        if_neg (by simpa using hgt),
        List.filter_cons_of_pos (by simp; omega), hsince]

end Pending

namespace Slot

/-- What is written where the slot is. -/
def inlineText (s : Slot) : Text := if s.anchor.isSome then [] else s.text

theorem flatMap_emission {source : Text} {slots : List Slot} {i : Nat} {s : Slot}
    (hs : slots[i]? = some s) :
    (s.emission i).flatMap (Emission.write source slots) = s.inlineText := by
  unfold emission inlineText
  cases s.anchor with
  | none => simp [Emission.write, hs]
  | some a => rfl

/-- Sorted fragments that carry the texts of the slots with an anchor. -/
structure Carries (source : Text) (slots : List Slot) (fragments : List Fragment)
    (pending : List Pending) : Prop where
  sorted : pending.Pairwise fun a b => a.anchor ≤ b.anchor
  anchor_mem : ∀ p ∈ pending, ∃ s ∈ slots, s.anchor = some p.anchor
  texts : ∀ a, (pending.filter (·.anchor == a)).flatMap (Pending.text fragments) =
    ((movedTo slots a).map Emission.text).flatMap (Emission.write source slots)

/-- The occurrences `os` stand where the slots from `pos` on stand. -/
structure Ahead (slots : List Slot) (pos : Nat) (rest : List Slot) (os : List Occurrence) :
    Prop where
  suffix : ∃ done, slots = done ++ rest ∧ ∀ s ∈ done, s.span.start < pos
  start_le : ∀ s ∈ rest, pos ≤ s.span.start
  spans : os.map (·.span) = rest.map (·.span)

section

variable {source : Text} {slots : List Slot} {fragments : List Fragment} {pending : List Pending}
  {hi pos : Nat} {rest : List Slot} {os : List Occurrence}

theorem Ahead.mem (h : Ahead slots pos rest os) {s : Slot} (hs : s ∈ rest) : s ∈ slots := by
  obtain ⟨done, hslots, _⟩ := h.suffix
  exact hslots ▸ List.mem_append_right done hs

/-- At the end of the text no slot is ahead. -/
theorem Ahead.eq_nil (h : Ahead slots hi rest os) (hfit : Fit hi slots) : rest = [] ∧ os = [] := by
  have hnil : rest = [] := by
    apply List.eq_nil_iff_forall_not_mem.2
    intro s hs
    have h1 := hfit.start_lt s (h.mem hs)
    have h2 := (hfit.inOrder.bounds (List.mem_map_of_mem (h.mem hs))).2.2
    have h3 := h.start_le s hs
    omega
  subst hnil
  exact ⟨rfl, List.map_eq_nil_iff.1 h.spans⟩

theorem Ahead.succ (h : Ahead slots pos rest os) (hnone : ∀ s ∈ slots, s.span.start ≠ pos) :
    Ahead slots (pos + 1) rest os where
  suffix := by
    obtain ⟨done, hslots, hdone⟩ := h.suffix
    exact ⟨done, hslots, fun s hs => Nat.lt_succ_of_lt (hdone s hs)⟩
  start_le := fun s hs => by
    have h1 := h.start_le s hs
    have h2 := hnone s (h.mem hs)
    omega
  spans := h.spans

/-- A slot that starts at `pos` is the first one ahead. -/
theorem Ahead.eq_cons (h : Ahead slots pos rest os) (hfit : Fit hi slots) {s : Slot}
    (hs : s ∈ slots) (hstart : s.span.start = pos) :
    ∃ rest' o os', rest = s :: rest' ∧ os = o :: os' ∧ o.span = s.span ∧
      Ahead slots s.span.stop rest' os' := by
  obtain ⟨done, hslots, hdone⟩ := h.suffix
  have hpair := List.pairwise_map.1 hfit.inOrder.pairwise
  rw [hslots] at hs hpair
  have hpair := (List.pairwise_append.1 hpair).2.1
  have hmem : s ∈ rest := by
    rcases List.mem_append.1 hs with hs | hs
    · exact absurd hstart (Nat.ne_of_lt (hdone s hs))
    · exact hs
  cases rest with
  | nil => cases hmem
  | cons r rest' =>
    obtain ⟨hr, _⟩ := List.pairwise_cons.1 hpair
    have hrs : r = s := by
      rcases List.mem_cons.1 hmem with rfl | hmem
      · rfl
      · have h1 := hr s hmem
        have h2 := hfit.start_lt r (h.mem List.mem_cons_self)
        have h3 := h.start_le r List.mem_cons_self
        omega
    subst hrs
    obtain ⟨o, os', rfl, ho, hos⟩ := List.map_eq_cons_iff.1 h.spans
    refine ⟨rest', o, os', rfl, rfl, ho, ⟨done ++ [r], ?_, fun t ht => ?_⟩, hr, hos⟩
    · rw [hslots, List.append_assoc]
      rfl
    · have hlt := hfit.start_lt r (h.mem List.mem_cons_self)
      rcases List.mem_append.1 ht with ht | ht
      · have := hdone t ht
        omega
      · cases List.mem_singleton.1 ht
        exact hlt

/-! ### The steps -/

/-- Writing the segments ahead of `pos` gives what `es` writes. -/
def WritesAs (source : Text) (slots : List Slot) (fragments : List Fragment)
    (pending : List Pending) (hi pos : Nat) (es : List Emission) : Prop :=
  ∀ rest os, Ahead slots pos rest os →
    Segment.write source fragments
        (Segment.insertMarkers (Scan.segmentsFrom hi pos os) (Pending.since pending pos))
        (rest.map inlineText) =
      es.flatMap (Emission.write source slots)

theorem writesAs_stop (hfit : Fit hi slots) (hc : Carries source slots fragments pending) :
    WritesAs source slots fragments pending hi hi ((movedTo slots hi).map .text) := by
  intro rest os h
  obtain ⟨rfl, rfl⟩ := h.eq_nil hfit
  have hsince : Pending.since pending hi = pending.filter (·.anchor == hi) := by
    apply List.filter_congr
    intro p hp
    obtain ⟨s, hs, ha⟩ := hc.anchor_mem p hp
    have hle := hfit.anchor_le s hs _ ha
    rw [Bool.eq_iff_iff, decide_eq_true_iff, beq_iff_eq]
    omega
  rw [Scan.segmentsFrom, if_neg (Nat.lt_irrefl hi), Segment.insertMarkers, ← hc.texts, hsince,
    ← List.append_nil (List.map _ _), Segment.write_markers]
  exact List.append_nil _

theorem writesAs_byte (hc : Carries source slots fragments pending) {es : List Emission}
    (hpos : pos < hi) (hnone : ∀ s ∈ slots, s.span.start ≠ pos)
    (ih : WritesAs source slots fragments pending hi (pos + 1) es) :
    WritesAs source slots fragments pending hi pos
      ((movedTo slots pos).map .text ++ .byte pos :: es) := by
  intro rest os h
  have hnext := h.succ hnone
  have hlt : ∀ o ∈ os, pos < o.span.start := by
    intro o ho
    have hspan : o.span ∈ rest.map (·.span) := h.spans ▸ List.mem_map_of_mem ho
    obtain ⟨s, hs, hso⟩ := List.mem_map.1 hspan
    exact hso ▸ hnext.start_le s hs
  obtain ⟨stop, tail, hstop, h1, h2⟩ := Segment.segmentsFrom_of_lt hpos hlt
  have hge : ∀ lo, ∀ p ∈ Pending.since pending lo, lo ≤ p.anchor := fun lo p hp =>
    of_decide_eq_true (List.mem_filter.1 hp).2
  have ih := ih rest os hnext
  rw [h2, Segment.insertMarkers_literalRun (hge (pos + 1))] at ih
  obtain ⟨hlater, hwrite⟩ := Segment.write_splitLiteral hstop (Pending.since pending pos)
  rw [h1, Segment.insertMarkers_literalRun (hge pos), hwrite, hlater,
    Pending.dropWhile_since hc.sorted, Pending.takeWhile_since hc.sorted, hc.texts, ih,
    List.flatMap_append]
  rfl

theorem writesAs_tag (hfit : Fit hi slots) (hc : Carries source slots fragments pending) {i : Nat}
    {s : Slot} (hs : slots[i]? = some s) (hstart : s.span.start = pos) {es : List Emission}
    (ih : WritesAs source slots fragments pending hi s.span.stop es) :
    WritesAs source slots fragments pending hi pos
      ((movedTo slots pos).map .text ++ (s.emission i ++ es)) := by
  intro rest os h
  have hmem := List.mem_of_getElem? hs
  obtain ⟨rest, o, os, rfl, rfl, ho, hnext⟩ := h.eq_cons hfit hmem hstart
  have hsince : Pending.since pending (pos + 1) = Pending.since pending s.span.stop := by
    have hlt := hfit.start_lt s hmem
    apply Pending.since_of_le (by omega)
    intro p hp hle
    obtain ⟨t, ht, ha⟩ := hc.anchor_mem p hp
    have hclear := hfit.anchor_clear t ht _ ha s hmem
    omega
  have hrun : Segment.literalRun pos pos = [] := if_neg (Nat.lt_irrefl pos)
  rw [Segment.segmentsFrom_cons, ho, hstart, hrun, List.nil_append, Segment.insertMarkers, ho,
    hstart, Pending.takeWhile_since hc.sorted, Pending.dropWhile_since hc.sorted, hsince,
    Segment.write_markers, hc.texts, List.map_cons, Segment.write, ih rest os hnext,
    ← flatMap_emission hs, List.flatMap_append, List.flatMap_append]

/-- Writing segments with markers is walking. -/
theorem writesAs_walk (hfit : Fit hi slots) (hc : Carries source slots fragments pending)
    (hpos : pos ≤ hi) (hclear : Clear slots pos) :
    WritesAs source slots fragments pending hi pos (walk slots hi pos) :=
  hfit.walk_induction (motive := WritesAs source slots fragments pending hi)
    (writesAs_stop hfit hc)
    (fun _ _ hlt _ hnone ih => writesAs_byte hc hlt hnone ih)
    (fun _ _ _ _ hs hstart _ _ ih => writesAs_tag hfit hc hs hstart ih) hpos hclear

end

/-! ## The texts that are moved -/

theorem map_getElem?_findIdxs {α : Type} (l : List α) (q : α → Bool) (start : Nat) :
    (l.findIdxs q start).map (fun i => l[i - start]?) = (l.filter q).map some := by
  induction l generalizing start with
  | nil => rfl
  | cons x xs ih =>
    have hshift : (xs.findIdxs q (start + 1)).map (fun i => (x :: xs)[i - start]?) =
        (xs.filter q).map some := by
      rw [← ih (start + 1)]
      apply List.map_congr_left
      intro i hi
      have hle := List.ge_of_mem_findIdxs i hi
      rw [show i - start = i - (start + 1) + 1 by omega, List.getElem?_cons_succ]
    rw [List.findIdxs_cons, List.filter_cons]
    split
    · rw [List.map_cons, hshift, Nat.sub_self, List.getElem?_cons_zero, List.map_cons]
    · exact hshift

/-- Looking up the things with a property gives those things. -/
theorem flatMap_findIdxs {α : Type} (l : List α) (q : α → Bool) (f : α → Text) :
    (l.findIdxs q).flatMap (fun i => (l[i]?.map f).getD []) = (l.filter q).flatMap f := by
  have h := congrArg (List.flatMap fun x => (Option.map f x).getD [])
    (map_getElem?_findIdxs l q 0)
  rw [List.flatMap_map, List.flatMap_map] at h
  exact h

/-- The fragments with one anchor, by their numbers. -/
theorem filter_mapIdx (l : List Fragment) (a start : Nat) :
    (l.mapIdx fun k f => (⟨k + start, f.anchor⟩ : Pending)).filter (·.anchor == a) =
      (l.findIdxs (fun f => f.anchor == a) start).map fun k => ⟨k, a⟩ := by
  induction l generalizing start with
  | nil => rfl
  | cons f rest ih =>
    have hshift : (fun (k : Nat) (f : Fragment) => (⟨k + 1 + start, f.anchor⟩ : Pending)) =
        fun k f => ⟨k + (start + 1), f.anchor⟩ := by
      funext k f
      rw [Nat.add_right_comm, Nat.add_assoc]
    rw [List.mapIdx_cons, hshift, List.filter_cons, ih, List.findIdxs_cons]
    split
    · rename_i ha
      rw [List.map_cons, Nat.zero_add, show f.anchor = a from beq_iff_eq.1 ha]
    · rfl

theorem filter_numbered (l : List Fragment) (a : Nat) :
    (Fragment.numbered l).filter (·.anchor == a) =
      (l.findIdxs (·.anchor == a)).map fun k => ⟨k, a⟩ := filter_mapIdx l a 0

/-- A slot as a placed text. -/
def placed (s : Slot) : Placed := ⟨s.text, s.anchor⟩

/-- The fragments of slots, in order. -/
def fragments (slots : List Slot) : List Fragment :=
  (slots.map placed).filterMap Placed.fragment?

theorem flatMap_fragments (slots : List Slot) (a : Nat) :
    ((fragments slots).filter (·.anchor == a)).flatMap (·.text) =
      (slots.filter (·.anchor == some a)).flatMap (·.text) := by
  unfold fragments
  induction slots with
  | nil => rfl
  | cons s rest ih =>
    rw [List.map_cons, List.filter_cons]
    cases hs : s.anchor with
    | none =>
      have hnone : (placed s).fragment? = none := by rw [Placed.fragment?, placed, hs]; rfl
      rw [List.filterMap_cons_none hnone, ih]
      rfl
    | some b =>
      have hsome : (placed s).fragment? = some ⟨b, s.text⟩ := by
        rw [Placed.fragment?, placed, hs]
        rfl
      rw [List.filterMap_cons_some hsome, List.filter_cons,
        show (some b == some a) = (b == a) from rfl]
      split
      · rw [List.flatMap_cons, List.flatMap_cons, ih]
      · exact ih

/-- The fragments of slots, sorted, carry the texts of those with an anchor. -/
theorem carries_byAnchor (source : Text) (slots : List Slot) :
    Carries source slots (fragments slots) (Fragment.byAnchor (fragments slots)) where
  sorted := Fragment.byAnchor_pairwise _
  anchor_mem := fun p hp => by
    obtain ⟨k, hk, rfl⟩ := List.mem_mapIdx.1 ((Fragment.byAnchor_perm _).mem_iff.1 hp)
    obtain ⟨q, hq, hf⟩ := List.mem_filterMap.1 (List.getElem_mem hk)
    obtain ⟨s, hs, rfl⟩ := List.mem_map.1 hq
    obtain ⟨a, ha, hf⟩ := Option.map_eq_some_iff.1 hf
    exact ⟨s, hs, by rw [← hf]; exact ha⟩
  texts := fun a => by
    rw [Fragment.byAnchor_filter, filter_numbered, List.flatMap_map, List.flatMap_map]
    calc ((fragments slots).findIdxs (·.anchor == a)).flatMap
          (fun k => Pending.text (fragments slots) ⟨k, a⟩)
      _ = ((fragments slots).filter (·.anchor == a)).flatMap (·.text) := flatMap_findIdxs _ _ _
      _ = (slots.filter (·.anchor == some a)).flatMap (·.text) := flatMap_fragments slots a
      _ = (movedTo slots a).flatMap (fun i => Emission.write source slots (.text i)) :=
        (flatMap_findIdxs _ _ _).symm

/-- Occurrences that stand where the slots stand are put together again as the walk goes. -/
theorem assemble_eq_walk {source : Text} {slots : List Slot} (hfit : Fit source.length slots)
    {os : List Occurrence} (hspans : os.map (·.span) = slots.map (·.span)) :
    Segment.assemble source (Scan.segmentsFrom source.length 0 os) (slots.map placed) =
      (walk slots source.length 0).flatMap (Emission.write source slots) := by
  have hahead : Ahead slots 0 slots os := ⟨⟨[], rfl, nofun⟩, fun _ _ => Nat.zero_le _, hspans⟩
  have hwalk := writesAs_walk hfit (carries_byAnchor source slots) (Nat.zero_le _)
    (clear_zero slots) slots os hahead
  have hsince : Pending.since (Fragment.byAnchor (fragments slots)) 0 =
      Fragment.byAnchor (fragments slots) := List.filter_eq_self.2 fun _ _ => rfl
  rw [hsince] at hwalk
  have htexts : (slots.map placed).map Placed.inlineText = slots.map inlineText := by
    rw [List.map_map]
    rfl
  rw [← hwalk, ← htexts]
  unfold Segment.assemble
  show Segment.write source (fragments slots) (if (fragments slots).isEmpty then _ else _) _ = _
  split
  · rename_i hempty
    rw [List.isEmpty_iff.1 hempty, Fragment.byAnchor, List.mapIdx_nil, List.mergeSort_nil]
    exact (Segment.write_insertMarkers_nil _ _).symm
  · rfl

theorem map_placed_slots (d : Document) (spans : List Span) (os : List Occurrence)
    (rs : List Resolved) : (List.zipWith (Slot.of d spans) os rs).map placed =
      List.zipWith (fun o r => ⟨r.text, o.anchor? r.placement d spans⟩) os rs :=
  List.map_zipWith

end Slot

/-! ## Main statement -/

namespace Rules

/-- **A text is put together as the walk goes.**  If no handler fails, the rendering is what a walk
through the text writes.  So each byte outside the tags and each text is written once, and the
texts moved to one offset keep their order. -/
theorem renderSegments_eq_walk {σ : Type} (render : Rendering σ) (rules : Rules) (source : Text)
    (pairs : Text → Bool) (w : World σ) :
    let scan := Scan.ofText source pairs
    let d := Document.ofMarkup source scan.markup
    let spans := scan.occurrences.map (·.span)
    match rules.resolutions render source d spans scan.occurrences w with
    | .error e w' => rules.renderSegments render source scan.segments d w = .error e w'
    | .tooDeep => rules.renderSegments render source scan.segments d w = .tooDeep
    | .ok rs w' =>
      let slots := List.zipWith (Slot.of d spans) scan.occurrences rs
      let written := Slot.walk slots source.length 0
      rules.renderSegments render source scan.segments d w =
          .ok (written.flatMap (Emission.write source slots)) w' ∧
        written.filterMap Emission.byte? =
          ((List.range source.length).filter fun p => !spans.any (·.contains p)) ∧
        (written.filterMap Emission.text?).Perm (List.range scan.occurrences.length) ∧
        ∀ a, ((written.filterMap Emission.text?).filter
          fun i => slots[i]?.any (·.anchor == some a)).Pairwise (· < ·) := by
  intro scan d spans
  have hrender : rules.renderSegments render source scan.segments d w =
      ((rules.resolutions render source d spans scan.occurrences w).map
        (List.zipWith (fun o r => ⟨r.text, o.anchor? r.placement d spans⟩) scan.occurrences)).map
        (Segment.assemble source scan.segments) := by
    rw [renderSegments_eq_map, ← resolveAll_eq]
    rfl
  rw [hrender]
  cases hres : rules.resolutions render source d spans scan.occurrences w with
  | error e w' => rfl
  | tooDeep => rfl
  | ok rs w' =>
    have hlen := length_of_resolutions hres
    have hfit : Slot.Fit source.length (List.zipWith (Slot.of d spans) scan.occurrences rs) :=
      Slot.fit_slots source pairs hlen
    have hspans := Slot.map_span_slots d spans hlen
    refine ⟨?_, ?_, ?_, hfit.texts_walk_filter⟩
    · have hassemble := Slot.assemble_eq_walk hfit hspans.symm
      rw [Slot.map_placed_slots, ← Scan.segments_eq_segmentsFrom] at hassemble
      exact congrArg (Result.ok · w') hassemble
    · have hbytes := hfit.bytes_walk_zero
      rw [hspans] at hbytes
      exact hbytes
    · have hperm := hfit.texts_walk_perm
      rw [List.length_zipWith, hlen, Nat.min_self] at hperm
      exact hperm

end Rules

end Shortcode
