import Shortcode.Proofs.PassTwins
import Shortcode.Proofs.Tiling

/-!
# Scanning is local

A tag of ordinary text is found again, with what it encloses, when its own text is scanned alone.
The markup, the malformed tags and the other tags inside it are read there as in the document, and
the doubled brackets that the cut takes away do not count.

    o.context = .body → (Scan.ofText (o.text source) pairs).segments = [.tag (o.atOrigin source)]
                                                                    (segments_ofText_text)
-/

namespace Shortcode

open Byte

/-! ## The ends of a tag -/

namespace Bracket

variable {context : Context} {c d : Cursor} {b : Bracket}

/-- No `[` follows the `[` of a tag. -/
theorem peekAt?_ne_of_readSingle (hread : readSingle? context c = some (b, d)) :
    c.peekAt? 1 ≠ some leftBracket := by
  intro hpeek
  have hhead : (c.advance 1).rest.head? = some leftBracket := by
    rw [Cursor.advance_rest, List.head?_drop]
    exact hpeek
  obtain ⟨rest, hrest⟩ := List.head?_eq_some_iff.1 hhead
  unfold readSingle? at hread
  simp only at hread
  split at hread
  · rename_i hslash
    rw [Cursor.startsWith, hrest] at hslash
    exact absurd (List.cons_prefix_cons.1 (List.isPrefixOf_iff_prefix.1 hslash)).1 (by decide)
  · unfold readOpening at hread
    have hname : (c.advance 1).takeWhile isNameByte = [] := by
      rw [Cursor.takeWhile, hrest]
      rfl
    simp [hname] at hread

/-- A tag may be read without the doubled `[` in front of it. -/
theorem exists_read_keep (hpeek : c.peek? = some leftBracket)
    (hread : read? context c = some (b, d)) (keep : Bool) (hkeep : keep = true → b.lead = true) :
    ∃ e, c.Reaches e ∧ e.pos = b.span.start - keep.toNat ∧ e.peek? = some leftBracket ∧
      read? context e = some ({ b with lead := keep }, d) := by
  have hstart := (readFrom_of_read hread).start_eq
  by_cases hsame : b.lead = keep
  · refine ⟨c, .refl c, ?_, hpeek, ?_⟩
    · rw [hsame] at hstart
      omega
    · rw [← hsame]
      exact hread
  · have hlead : b.lead = true ∧ keep = false := by
      cases keep <;> cases hb : b.lead <;> simp_all
    obtain ⟨hlead, rfl⟩ := hlead
    rw [hlead] at hstart
    have hnext := Cursor.reaches_next (Cursor.rest_ne_nil hpeek)
    unfold read? at hread
    simp only at hread
    split at hread
    · cases hread
    · rename_i b' after hsingle
      cases hread
      simp only at hlead
      rw [if_pos hlead] at hsingle
      have hsecond : (c.advance 1).peek? = some leftBracket := by
        rw [Cursor.peek?, Cursor.advance_rest, List.head?_drop]
        simpa [Cursor.peekAt?] using hlead
      refine ⟨c.advance 1, hnext, hstart.symm, hsecond, ?_⟩
      have hlead' : ((c.advance 1).peekAt? 1 == some leftBracket) = false := by
        simpa using peekAt?_ne_of_readSingle hsingle
      simp [read?, hlead', hsingle]

end Bracket

namespace TwoPlaces

/-- The places of a part of a text: where it stands, and alone. -/
def cutOut (source : Text) (s : Span) : TwoPlaces :=
  ⟨s.start, 0, s.length, source.drop s.stop, []⟩

variable {source : Text} {s : Span} {k : TwoPlaces} {c d : Cursor}

theorem cutOut_stop (hle : s.start ≤ s.stop) : (cutOut source s).stop = s.stop :=
  Nat.add_sub_of_le hle

theorem twins_cutOut (hc : c.Over source) (hpos : c.pos = s.start) (hle : s.start ≤ s.stop)
    (hstop : s.stop ≤ source.length) :
    (cutOut source s).Twins c (.ofText (s.slice source) 0) := by
  refine ⟨0, s.slice source, ?_, ?_, ?_⟩
  · show 0 + ((source.drop s.start).take s.length).length = s.length
    rw [List.length_take, List.length_drop, Span.length]
    omega
  · have hrest : c.rest = s.slice source ++ source.drop s.stop := by
      have hdrop : source.drop s.stop = (source.drop s.start).drop s.length := by
        rw [List.drop_drop, Span.length]
        congr 1
        omega
      rw [hc.2, hpos, hdrop, Span.slice, List.take_append_drop]
    show c = ⟨s.start + 0, s.slice source ++ source.drop s.stop⟩
    rw [← hrest, Nat.add_zero, ← hpos]
  · show Cursor.ofText (s.slice source) 0 = ⟨0 + 0, s.slice source ++ []⟩
    rw [List.append_nil]
    rfl

/-- At the end of a run with nothing behind it. -/
theorem Twins.rest_eq_nil (h : k.Twins c d) (hpos : c.pos = k.stop) (hafter : k.rightAfter = []) :
    d.rest = [] := by
  obtain ⟨i, t, hlen, rfl, rfl⟩ := h
  have ht : t = [] := by
    apply List.length_eq_zero_iff.1
    simp only [stop] at hpos
    omega
  rw [ht, hafter]
  rfl

/-- The last tag of a run with nothing behind it.  The `]` behind the tag is read at the other place
if it belongs to the run. -/
theorem Twins.exists_read_last (h : k.Twins c d) (hafter : k.rightAfter = []) {b : Bracket}
    {after : Cursor} (hread : Bracket.read? .body c = some (b, after)) {keep : Bool}
    (hkeep : keep = true → b.trail = true) (hstop : k.stop = b.span.stop + keep.toNat) :
    ∃ d', Bracket.read? .body d = some ({ b.moved k with trail := keep }, d') ∧ d'.rest = [] := by
  obtain ⟨e, e', htwins, hpos, htrail, -, hread'⟩ := Bracket.read_of_twins h hread (by omega)
  have hsame : e'.startsWith [rightBracket] = keep := by
    cases keep with
    | true =>
      rw [← hkeep rfl, htrail]
      refine htwins.startsWith [rightBracket] ?_
      rw [hstop, hpos]
      exact Nat.le_refl _
    | false =>
      rw [Cursor.startsWith, htwins.rest_eq_nil (hpos.trans hstop.symm) hafter]
      rfl
  rw [hsame] at hread'
  refine ⟨_, hread', ?_⟩
  exact (htwins.advance (by omega)).rest_eq_nil (by rw [hstop, ← hpos]; rfl) hafter

end TwoPlaces

/-! ## The tags of a part of the text -/

namespace Piece

theorem expand_append_bracket (source : Text) (n : Nat) (items : List Piece) (b : Bracket) :
    expand source n (items ++ [.bracket b]) = expand source n items ++ [.bracket b] := by
  induction items generalizing n with
  | nil => rfl
  | cons p rest ih =>
    cases p with
    | bracket b' => rw [List.cons_append, expand, expand, ih, List.cons_append]
    | token t => rw [List.cons_append, expand, expand, ih, List.cons_append, List.append_assoc]

theorem mem_expand_of_mem {source : Text} (n : Nat) {items : List Piece} {b : Bracket}
    (hb : .bracket b ∈ items) : b ∈ (expand source n items).filterMap bracket? := by
  induction items generalizing n with
  | nil => cases hb
  | cons p rest ih =>
    cases p with
    | bracket b' =>
      rw [expand, filterMap_bracket?_bracket]
      rcases List.mem_cons.1 hb with he | hb
      · cases he
        exact List.mem_cons_self
      · exact List.mem_cons_of_mem _ (ih n hb)
    | token t =>
      rw [expand_bracket?_token]
      exact List.mem_append_right _ (ih _ (by simpa using hb))

/-- The tags around a tag of ordinary text. -/
theorem exists_of_filterMap_bracket? {source : Text} {n : Nat} {items : List Piece}
    {pre post : List Bracket} {b : Bracket} (hb : b.context = .body)
    (h : (expand source n items).filterMap bracket? = pre ++ b :: post) :
    ∃ front back m, items = front ++ .bracket b :: back ∧
      pre = (expand source n front).filterMap bracket? ∧
      post = (expand source m back).filterMap bracket? := by
  induction items generalizing n pre with
  | nil => simp [expand] at h
  | cons p rest ih =>
    cases p with
    | bracket b' =>
      rw [expand, filterMap_bracket?_bracket] at h
      cases pre with
      | nil =>
        obtain ⟨rfl, rfl⟩ := List.cons_eq_cons.1 h
        exact ⟨[], rest, n, rfl, rfl, rfl⟩
      | cons b'' pre =>
        obtain ⟨rfl, hrest⟩ := List.cons_eq_cons.1 h
        obtain ⟨front, back, m, rfl, rfl, hback⟩ := ih hrest
        exact ⟨.bracket b' :: front, back, m, rfl, rfl, hback⟩
    | token t =>
      rw [expand_bracket?_token] at h
      have hregions : b ∉ (Region.ofToken source n t).flatMap (·.brackets source) := by
        intro hmem
        obtain ⟨r, hr, hbr⟩ := List.mem_flatMap.1 hmem
        have hr' : r ∈ Region.ofTokens source n [t] := by
          rw [Region.ofTokens]
          exact List.mem_append_left _ hr
        exact Region.context_ne_body hr' ((Region.brackets_context hbr).1.symm.trans hb)
      -- the tags of the regions of the token stand in front of `b`
      have hcut : ∃ pre', pre = (Region.ofToken source n t).flatMap (·.brackets source) ++ pre' ∧
          (expand source (n + (Region.ofToken source n t).length) rest).filterMap bracket? =
            pre' ++ b :: post := by
        rcases List.append_eq_append_iff.1 h with ⟨pre', rfl, hrest⟩ | ⟨mid, hmid, hrest⟩
        · exact ⟨pre', rfl, hrest⟩
        · cases mid with
          | nil => exact ⟨[], by rw [hmid, List.append_nil, List.append_nil], hrest.symm⟩
          | cons b' mid =>
            obtain ⟨rfl, -⟩ := List.cons_eq_cons.1 hrest
            exact absurd (hmid ▸ by simp) hregions
      obtain ⟨pre', rfl, hrest⟩ := hcut
      obtain ⟨front, back, m, rfl, rfl, hback⟩ := ih hrest
      refine ⟨.token t :: front, back, m, rfl, ?_, hback⟩
      rw [expand_bracket?_token]

end Piece

/-! ## Pairing in a part of the text -/

namespace Occurrence

theorem widen_start (span : Span) (escaped : Bool) :
    (widen span escaped).start = span.start - escaped.toNat := by
  cases escaped <;> rfl

theorem widen_stop (span : Span) (escaped : Bool) :
    (widen span escaped).stop = span.stop + escaped.toNat := by
  cases escaped <;> rfl

/-- A span that is widened, as it stands in its own text. -/
theorem widen_shift (span : Span) {escaped : Bool} (hroom : escaped.toNat ≤ span.start)
    (hle : span.start ≤ span.stop) :
    widen ⟨span.start - (widen span escaped).start, span.stop - (widen span escaped).start⟩
        escaped =
      ⟨0, (widen span escaped).stop - (widen span escaped).start⟩ := by
  rw [widen_start, widen_stop]
  cases escaped with
  | false => simp [widen]
  | true =>
    simp only [Bool.toNat_true] at hroom
    simp only [widen, Bool.toNat_true, if_true, Span.mk.injEq]
    omega

/-- An open tag is closed by the last tag if no other one closes it. -/
theorem findClose?_append {opener close : Bracket} {bs : List Bracket}
    (hbs : ∀ b ∈ bs, b.closes opener = false) (hclose : close.closes opener = true) :
    findClose? opener (bs ++ [close]) = some (close, []) := by
  induction bs with
  | nil => rw [List.nil_append, findClose?, if_pos hclose]
  | cons b rest ih =>
    have hb := hbs b List.mem_cons_self
    rw [List.cons_append, findClose?, hb, if_neg Bool.false_ne_true]
    exact ih fun c hc => hbs c (List.mem_cons_of_mem _ hc)

/-- A tag that stands alone does so without the tags behind it. -/
theorem ofBrackets_alone {pairs : Text → Bool} {b b' : Bracket} {rest : List Bracket}
    {arguments : Arguments} {form : Form} (h : b.Alone pairs rest arguments form)
    (hkind : b'.kind = b.kind) (hescape : b'.isEscape = b.isEscape) :
    ofBrackets pairs [b'] = [alone b' arguments form] := by
  have hnil : ofBrackets pairs [] = [] := by rw [ofBrackets]
  -- nothing is left that might close an open tag
  have hopener : ∀ {arguments}, b.IsOpener arguments →
      ofBrackets pairs [b'] = [alone b' arguments .opening] := by
    rintro arguments ⟨hk, hesc⟩
    rw [ofBrackets, hkind, hk]
    simp only [hescape, hesc, Bool.false_eq_true, if_false, hnil]
    split
    · rfl
    · rename_i hfind
      cases hfind
  cases h with
  | strayClose hk => rw [ofBrackets, hkind, hk, hnil]
  | selfClosing hk => rw [ofBrackets, hkind, hk, hnil]; rfl
  | escape hk hesc =>
    rw [ofBrackets, hkind, hk]
    simp only [hescape, hesc, Bool.false_eq_true, if_false, if_true, hnil]
  | unclosed h _ => exact hopener h
  | refused h _ => exact hopener h

theorem ofBrackets_pair {pairs : Text → Bool} {opener close : Bracket} {bs : List Bracket}
    {arguments : Arguments} (hopener : opener.IsOpener arguments)
    (hfind : findClose? opener bs = some (close, []))
    (hpairs : (opener.lead && close.trail || pairs opener.name) = true) :
    ofBrackets pairs (opener :: bs) = [between opener close arguments] := by
  obtain ⟨hkind, hescape⟩ := hopener
  rw [ofBrackets, hkind]
  simp only [hescape, Bool.false_eq_true, if_false]
  split
  · rename_i hnone
    cases hnone.symm.trans hfind
  · rename_i close' after hsome
    cases hsome.symm.trans hfind
    rw [if_pos hpairs, ofBrackets]

end Occurrence

/-! ## Main statement -/

/-- The tag as it stands in the text of a span, with these doubled brackets around it. -/
def Bracket.within (s : Span) (lead trail : Bool) (b : Bracket) : Bracket :=
  ⟨b.name, b.kind, ⟨b.span.start - s.start, b.span.stop - s.start⟩, lead, trail, b.context⟩

/-- The occurrence as it stands in its own text. -/
def Occurrence.atOrigin (source : Text) (o : Occurrence) : Occurrence :=
  { o with
    span := ⟨0, (o.text source).length⟩
    content := o.content.map fun c => ⟨c.start - o.span.start, c.stop - o.span.start⟩ }

namespace Scan

variable {source : Text} {pairs : Text → Bool}

/-- The tags of a part of the text that starts in front of one tag and ends behind another; `keep`
says whether a doubled `]` behind that belongs to the part. -/
theorem tags_slice {c : Cursor} {pre post : List Piece} {b : Bracket}
    (hpass : Pass source c (pre ++ .bracket b :: post)) (hc : c.Over source) {s : Span}
    (hpos : c.pos = s.start) (hle : s.start ≤ s.stop) (hlen : s.stop ≤ source.length) (keep : Bool)
    (hkeep : keep = true → b.trail = true) (hstop : s.stop = b.span.stop + keep.toNat) :
    tags (s.slice source) =
      (Piece.expand (s.slice source) 0 (pre.map (·.moved (.cutOut source s)))).filterMap
        Piece.bracket? ++ [b.within s b.lead keep] := by
  have hkstop : (TwoPlaces.cutOut source s).stop = s.stop := TwoPlaces.cutOut_stop hle
  have htwins := TwoPlaces.twins_cutOut hc hpos hle hlen
  have hover := Cursor.over_ofText (s.slice source)
  obtain ⟨e, e', after, hend, -, hpeek, hread, -, hbuild⟩ :=
    Pass.walk_of_twins hpass hc hover htwins rfl (by omega)
  obtain ⟨d, hread', hnil⟩ := hend.exists_read_last rfl hread hkeep (hkstop.trans hstop)
  have hpeek' : e'.peek? = some leftBracket := by
    have h1 := (Bracket.readFrom_of_read hread).start_eq
    have h2 := (Bracket.readFrom_of_read hread).start_lt_stop
    exact (hend.peek? (by omega)).trans hpeek
  have hpieces := pieces_of_pass (hbuild _ (.bracket hpeek' hread' (.done hnil))) hover 0
  rw [tags, hpieces, Piece.expand_append_bracket, List.filterMap_append]
  rfl

/-- Where the pass stands at the start of an occurrence of ordinary text. -/
theorem exists_pass_at {b : Bracket} {pre post : List Bracket} (hb : b.context = .body)
    (htags : tags source = pre ++ b :: post) (keep : Bool) (hkeep : keep = true → b.lead = true) :
    ∃ c m back, c.Over source ∧ c.pos = b.span.start - keep.toNat ∧
      Pass source c (.bracket { b with lead := keep } :: back) ∧
      post = (Piece.expand source m back).filterMap Piece.bracket? := by
  have hover := Cursor.over_ofText source
  obtain ⟨items, hpass, hpieces⟩ := exists_pass hover 0
  rw [tags, hpieces] at htags
  obtain ⟨front, back, m, rfl, -, hback⟩ := Piece.exists_of_filterMap_bracket? hb htags
  obtain ⟨e, after, hreach, hpeek, hread, -, hrest⟩ := hpass.exists_read
  obtain ⟨c, hc, hpos, hcpeek, hcread⟩ := Bracket.exists_read_keep hpeek hread keep hkeep
  exact ⟨c, m, back, (hreach.trans hc).over hover, hpos, .bracket hcpeek hcread hrest, hback⟩

theorem length_slice {s : Span} (hlen : s.stop ≤ source.length) :
    (s.slice source).length = s.stop - s.start := by
  rw [Span.slice, List.length_take, List.length_drop, Span.length]
  omega

section

variable {b close : Bracket} {arguments : Arguments}

/-- A tag that stands alone, scanned alone. -/
theorem ofBrackets_text_alone {pre rest : List Bracket} {form : Form}
    (htags : tags source = pre ++ b :: rest) (halone : b.Alone pairs rest arguments form)
    (hbody : b.context = .body)
    (hlen : (Occurrence.alone b arguments form).span.stop ≤ source.length) :
    Occurrence.ofBrackets pairs (tags ((Occurrence.alone b arguments form).text source)) =
      [(Occurrence.alone b arguments form).atOrigin source] := by
  generalize ho : Occurrence.alone b arguments form = o at hlen ⊢
  have hspan : o.span = Occurrence.widen b.span b.isEscape := by rw [← ho]; rfl
  have hmem : b ∈ tags source := by simp [htags]
  have hproper := proper_of_mem_tags hmem
  have hlead : b.isEscape = true → b.lead = true := fun h => (Bool.and_eq_true_iff.1 h).1
  have htrail : b.isEscape = true → b.trail = true := fun h => (Bool.and_eq_true_iff.1 h).2
  have hroom := hproper.toNat_le hlead
  have hlt := hproper.start_lt_stop
  have hstart : o.span.start = b.span.start - b.isEscape.toNat := by
    rw [hspan, Occurrence.widen_start]
  have hstop : o.span.stop = b.span.stop + b.isEscape.toNat := by
    rw [hspan, Occurrence.widen_stop]
  obtain ⟨c, m, back, hc, hpos, hpass, -⟩ := exists_pass_at hbody htags b.isEscape hlead
  have hslice : tags (o.text source) = [b.within o.span b.isEscape b.isEscape] :=
    tags_slice (show Pass source c ([] ++ .bracket _ :: back) from hpass) hc
      (hpos.trans hstart.symm) (by omega) hlen b.isEscape htrail hstop
  have hkind : (b.within o.span b.isEscape b.isEscape).kind = b.kind := rfl
  have hescape : (b.within o.span b.isEscape b.isEscape).isEscape = b.isEscape := Bool.and_self _
  have hwiden := Occurrence.widen_shift b.span hroom (Nat.le_of_lt hlt)
  rw [← hspan, ← length_slice hlen] at hwiden
  rw [hslice, Occurrence.ofBrackets_alone halone hkind hescape, Occurrence.alone, hescape]
  refine congrArg (fun o => [o]) ?_
  show Occurrence.mk b.name arguments none form (Occurrence.widen
    ⟨b.span.start - o.span.start, b.span.stop - o.span.start⟩ b.isEscape) b.isEscape b.context = _
  rw [hwiden, ← ho]
  rfl

/-- Nothing between the two tags of a pair closes the first of them. -/
theorem closes_of_mem_expand (opener : Bracket) (part : Text) (n : Nat) {k : TwoPlaces} {m : Nat}
    {items : List Piece} (hopener : opener.context = .body) (hsame : opener.name = b.name)
    (hbody : b.context = .body)
    (hmid : ∀ x ∈ (Piece.expand source m items).filterMap Piece.bracket?, x.closes b = false) :
    ∀ x ∈ (Piece.expand part n (items.map (·.moved k))).filterMap Piece.bracket?,
      x.closes opener = false := by
  intro x hx
  rcases Piece.mem_expand_bracket? hx with hmem | ⟨r, hr, hmem⟩
  · obtain ⟨p, hp, he⟩ := List.mem_map.1 hmem
    cases p with
    | token t => cases he
    | bracket y =>
      cases he
      have hy := hmid y (Piece.mem_expand_of_mem m hp)
      rw [← hy]
      unfold Bracket.closes
      rw [hsame, hopener, hbody]
      rfl
  · -- a tag of a region has another context
    rw [Bool.eq_false_iff]
    intro hcloses
    have hcontext := Bracket.context_eq_of_closes hcloses
    rw [hopener, (Region.brackets_context hmem).1] at hcontext
    exact Region.context_ne_body hr hcontext

/-- A close tag still closes its open tag when one of its doubled brackets is cut off. -/
theorem closes_within {s : Span} {lead keep : Bool} (hclose : close.closes b = true)
    (hkeep : keep = true → close.trail = true) :
    (close.within s close.lead keep).closes (b.within s lead b.trail) = true := by
  unfold Bracket.closes at hclose ⊢
  rw [Bool.and_eq_true] at hclose ⊢
  refine ⟨hclose.1, ?_⟩
  have hescape : (close.lead && close.trail) = false := Bool.not_eq_eq_eq_not.1 hclose.2
  show (!(close.lead && keep)) = true
  cases keep with
  | false => rw [Bool.and_false]; rfl
  | true =>
    rw [hkeep rfl] at hescape
    rw [hescape]
    rfl

/-- An open tag and its close tag, scanned alone. -/
theorem ofBrackets_text_between {pre mid after : List Bracket}
    (htags : tags source = pre ++ b :: (mid ++ close :: after)) (hopener : b.IsOpener arguments)
    (hmid : ∀ x ∈ mid, x.closes b = false) (hclose : close.closes b = true)
    (hpairs : (b.lead && close.trail || pairs b.name) = true) (hbody : b.context = .body)
    (hlen : (Occurrence.between b close arguments).span.stop ≤ source.length) :
    Occurrence.ofBrackets pairs (tags ((Occurrence.between b close arguments).text source)) =
      [(Occurrence.between b close arguments).atOrigin source] := by
  have hmem : b ∈ tags source := by simp [htags]
  have hproper := proper_of_mem_tags hmem
  have hcloseMem : close ∈ tags source := by simp [htags]
  have hcloseProper := proper_of_mem_tags hcloseMem
  have hcloseBody := (Bracket.context_eq_of_closes hclose).trans hbody
  have horder := outer_stop_le htags
  generalize ho : Occurrence.between b close arguments = o at hlen ⊢
  generalize hkeep : (b.lead && close.trail) = keep at hpairs
  have hspan : o.span = Occurrence.widen ⟨b.span.start, close.span.stop⟩ keep := by
    rw [← ho, ← hkeep]
    rfl
  have hlead : keep = true → b.lead = true := fun h => (Bool.and_eq_true_iff.1 (hkeep.trans h)).1
  have htrail : keep = true → close.trail = true :=
    fun h => (Bool.and_eq_true_iff.1 (hkeep.trans h)).2
  have hroom := hproper.toNat_le hlead
  have hle : b.span.start ≤ close.span.stop := by
    have h1 := hproper.start_lt_stop
    have h2 := hcloseProper.start_lt_stop
    have h3 := b.span_stop_le_outer
    have h4 := close.outer_start_le
    omega
  have hstart : o.span.start = b.span.start - keep.toNat := by rw [hspan, Occurrence.widen_start]
  have hstop : o.span.stop = close.span.stop + keep.toNat := by rw [hspan, Occurrence.widen_stop]
  obtain ⟨c, m, back, hc, hpos, hpass, hback⟩ := exists_pass_at hbody htags keep hlead
  obtain ⟨front, back, -, rfl, hfront, -⟩ :=
    Piece.exists_of_filterMap_bracket? hcloseBody hback.symm
  have hslice := tags_slice
    (show Pass source c (.bracket { b with lead := keep } :: front ++ .bracket close :: back)
      from hpass) hc (hpos.trans hstart.symm) (by omega) hlen keep htrail hstop
  have hopener' : (b.within o.span keep b.trail).IsOpener arguments := by
    refine ⟨hopener.1, ?_⟩
    have hescape : (b.lead && b.trail) = false := hopener.2
    show (keep && b.trail) = false
    cases keep with
    | false => rfl
    | true => rwa [hlead rfl] at hescape
  have hclose' : (close.within o.span close.lead keep).closes (b.within o.span keep b.trail) =
      true := closes_within hclose htrail
  have hmid' := closes_of_mem_expand (b.within o.span keep b.trail) (o.text source) 0
    (k := .cutOut source o.span) hbody rfl hbody (hfront ▸ hmid)
  have hpairs' : ((b.within o.span keep b.trail).lead &&
      (close.within o.span close.lead keep).trail ||
        pairs (b.within o.span keep b.trail).name) = true := by
    show (keep && keep || pairs b.name) = true
    rwa [Bool.and_self]
  have htagsText : tags (o.text source) = b.within o.span keep b.trail ::
      ((Piece.expand (o.text source) 0 (front.map (·.moved (.cutOut source o.span)))).filterMap
        Piece.bracket? ++ [close.within o.span close.lead keep]) := hslice
  have hwiden := Occurrence.widen_shift ⟨b.span.start, close.span.stop⟩ hroom hle
  rw [← hspan, ← length_slice hlen] at hwiden
  rw [htagsText, Occurrence.ofBrackets_pair hopener' (Occurrence.findClose?_append hmid' hclose')
    hpairs']
  refine congrArg (fun o => [o]) ?_
  show Occurrence.mk b.name arguments
    (some ⟨b.span.stop - o.span.start, close.span.start - o.span.start⟩) .enclosing
    (Occurrence.widen ⟨b.span.start - o.span.start, close.span.stop - o.span.start⟩ (keep && keep))
    (keep && keep) b.context = _
  rw [Bool.and_self, hwiden, ← ho, ← hkeep]
  rfl

end

theorem ofBrackets_text {o : Occurrence} (ho : o ∈ (ofText source pairs).occurrences)
    (hbody : o.context = .body) :
    Occurrence.ofBrackets pairs (tags (o.text source)) = [o.atOrigin source] := by
  rw [occurrences_ofText] at ho
  have hlen := ((occurrences_inOrder source pairs).1.bounds (List.mem_map_of_mem ho)).2.2
  cases (Occurrence.pairing_ofBrackets pairs (tags source)).origin ho with
  | single htags halone => exact ofBrackets_text_alone htags halone hbody hlen
  | pair htags hopener hmid hclose hpairs =>
    exact ofBrackets_text_between htags hopener hmid hclose hpairs hbody hlen

/-- **Scanning is local.**  The text of a tag of ordinary text, scanned alone, is that tag. -/
theorem segments_ofText_text {o : Occurrence} (ho : o ∈ (ofText source pairs).occurrences)
    (hbody : o.context = .body) :
    (ofText (o.text source) pairs).segments = [.tag (o.atOrigin source)] := by
  have hstart : ¬ 0 < (o.atOrigin source).span.start := Nat.lt_irrefl 0
  have hstop : ¬ (o.atOrigin source).span.stop < (o.text source).length := Nat.lt_irrefl _
  rw [segments_ofText, ofBrackets_text ho hbody, segmentsFrom, if_neg hstart, segmentsFrom,
    if_neg hstop]

/-- An escaped pair around an attribute value, a comment, a script and a malformed tag, each of
which holds what would close the pair or open another one. -/
theorem segments_ofText_text_nested :
    (let source := Text.ofString
      "é[[b q=']']<a t='[/b]'><!-- [/b] --><script>[/b]</script>[b [i]</p>[/b]] [u]";
    let arguments := Arguments.ofList [(Text.ofString "q", Text.ofString "]")];
    let o : Occurrence :=
      ⟨Text.ofString "b", arguments, some ⟨12, 68⟩, .enclosing, ⟨2, 73⟩, true, .body⟩;
    o ∈ (ofText source fun _ => true).occurrences ∧ o.context = .body ∧
      (ofText (o.text source) fun _ => true).segments =
        [.tag ⟨Text.ofString "b", arguments, some ⟨10, 66⟩, .enclosing, ⟨0, 71⟩, true, .body⟩]) :=
  ⟨by decide +kernel, rfl,
    (segments_ofText_text (by decide +kernel) rfl).trans (by decide +kernel)⟩

end Scan

end Shortcode
