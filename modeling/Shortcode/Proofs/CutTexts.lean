import Shortcode.Proofs.ScanSlices

/-!
# Names, keys and values are cut out

The names of tags, elements and attributes and the keys and values of arguments are the words that a
scan takes over from its text.  Each of them is cut out as one of the runs that stand in the lists
of slices, so these lists leave none of them out.

    b ∈ Scan.tags source → b.CutFrom source (Scan.slices source)             (cutFrom_of_mem_tags)
-/

namespace Shortcode

open Byte

/-! ## Runs -/

/-- The text `t` is cut out of the source as one of the spans. -/
def Span.Cut (source : Text) (spans : List Span) (t : Text) : Prop :=
  ∃ s ∈ spans, s.slice source = t

theorem Span.Cut.mono {source t : Text} {a b : List Span} (h : Cut source a t) (hab : a ⊆ b) :
    Cut source b t := by
  obtain ⟨s, hs, rfl⟩ := h
  exact ⟨s, hab hs, rfl⟩

theorem Span.cut_head {source t : Text} {s : Span} (h : s.slice source = t) (rest : List Span) :
    Cut source (s :: rest) t := ⟨s, List.mem_cons_self, h⟩

namespace Cursor

variable {source : Text} {hi : Nat} {c d : Cursor} (hc : c.Over (source.take hi))

include hc

theorem slice_of_append {a b : Text} (h : a ++ b = c.rest) :
    (c.spanTo ⟨c.pos + a.length, b⟩).slice source = a := by
  have hrest : c.rest = (source.drop c.pos).take (hi - c.pos) := by rw [hc.2, List.drop_take]
  have hlen : a.length ≤ hi - c.pos := by
    have := congrArg List.length (h.trans hrest)
    rw [List.length_append, List.length_take] at this
    omega
  show (source.drop c.pos).take (c.pos + a.length - c.pos) = a
  rw [Nat.add_sub_cancel_left, ← Nat.min_eq_left hlen, ← List.take_take, ← hrest, ← h,
    List.take_left]

theorem slice_skipWhile (p : UInt8 → Bool) :
    (c.spanTo (c.skipWhile p)).slice source = c.takeWhile p :=
  slice_of_append hc List.takeWhile_append_dropWhile

theorem slice_skipUntil (stop : Text → Bool) :
    (c.spanTo (c.skipUntil stop)).slice source = c.takeUntil stop :=
  slice_of_append hc (Text.takeUntil_append_dropUntil stop c.rest)

end Cursor

/-! ## Arguments -/

/-- The key and the value of an argument are cut out; a key alone has the empty value. -/
structure Arguments.EntryCut (source : Text) (spans : List Span) (e : Text × Text) : Prop where
  key : Span.Cut source spans e.1
  value : e.2 = [] ∨ Span.Cut source spans e.2

namespace Arguments

theorem EntryCut.mono {source : Text} {a b : List Span} {e : Text × Text}
    (h : EntryCut source a e) (hab : a ⊆ b) : EntryCut source b e :=
  ⟨h.key.mono hab, h.value.imp_right fun hv => hv.mono hab⟩

theorem mem_put {key value : Text} {es : List (Text × Text)} {e : Text × Text}
    (h : e ∈ put key value es) : e = (key, value) ∨ e ∈ es := by
  induction es with
  | nil => exact .inl (List.mem_singleton.1 h)
  | cons first rest ih =>
    obtain ⟨k, v⟩ := first
    rw [put] at h
    split at h
    · rename_i hk
      rcases List.mem_cons.1 h with rfl | h
      · exact .inl (by rw [hk])
      · exact .inr (List.mem_cons_of_mem _ h)
    · rcases List.mem_cons.1 h with rfl | h
      · exact .inr List.mem_cons_self
      · exact (ih h).imp_right (List.mem_cons_of_mem _)

section

variable {source : Text} {hi : Nat} {stop : Terminator} {c d : Cursor}
  (hc : c.Over (source.take hi))

include hc

theorem cut_value {v : Text} (h : value stop c = .ok (v, d)) :
    Span.Cut source (valueSlices stop c) v := by
  unfold value at h
  unfold valueSlices
  cases hb : c.peek? with
  | none =>
    rw [hb] at h
    cases h
    refine Span.cut_head ?_ []
    show (source.drop c.pos).take (c.pos - c.pos) = []
    rw [Nat.sub_self, List.take_zero]
  | some b =>
    rw [hb] at h
    simp only at h ⊢
    split at h
    · rename_i hquote
      have hfirst := (Cursor.reaches_next (Cursor.rest_ne_nil hb)).over hc
      unfold quotedValue at h
      simp only at h
      split at h
      · cases h
      · rename_i hend
        cases h
        rw [if_pos hquote, if_neg hend]
        exact Span.cut_head (Cursor.slice_skipWhile hfirst _) []
    · rename_i hquote
      cases h
      rw [if_neg hquote]
      exact Span.cut_head (Cursor.slice_skipUntil hc _) []

theorem cut_entry {e : Text × Text} (h : entry stop c = .ok (e, d)) :
    EntryCut source (entrySlices stop c) e := by
  unfold entry at h
  unfold entrySlices
  cases hb : c.peek? with
  | none =>
    rw [hb] at h
    cases h
  | some b =>
    rw [hb] at h
    simp only at h ⊢
    have hkey := Cursor.slice_skipWhile hc isKeyByte
    split at h
    · cases h
    · rename_i hempty
      rw [if_neg hempty]
      split at h
      · rename_i hsign
        rw [if_pos hsign]
        have hreach : c.Reaches
            ((((c.skipWhile isKeyByte).skipWhile isSpace).advance 1).skipWhile isSpace) :=
          (Cursor.reaches_skipWhile _ _).trans <| (Cursor.reaches_skipWhile _ _).trans <|
            (Cursor.reaches_next (Cursor.rest_ne_nil hsign)).trans (Cursor.reaches_skipWhile _ _)
        cases hv : value stop
            ((((c.skipWhile isKeyByte).skipWhile isSpace).advance 1).skipWhile isSpace) with
        | error e =>
          rw [hv] at h
          cases h
        | ok p =>
          rw [hv] at h
          cases h
          exact ⟨Span.cut_head hkey _,
            .inr ((cut_value (hreach.over hc) hv).mono (List.subset_cons_self _ _))⟩
      · rename_i hsign
        rw [if_neg hsign]
        cases h
        exact ⟨Span.cut_head hkey [], .inl rfl⟩

/-- Each argument is cut out, unless it was there before. -/
theorem cut_readInto {args args' : Arguments} (h : readInto stop args c = .ok (args', d))
    {e : Text × Text} (he : e ∈ args'.entries) :
    e ∈ args.entries ∨ EntryCut source (slices stop c) e := by
  induction hn : c.rest.length using Nat.strongRecOn generalizing c args with
  | _ n ih =>
    subst hn
    have hskip := (Cursor.reaches_skipWhile isSeparator c).over hc
    rw [readInto] at h
    rw [slices]
    simp only at h ⊢
    split at h
    · cases h
      exact .inl he
    · rename_i hreached
      rw [if_neg hreached]
      split at h
      · cases h
      · rename_i key value after hentry
        have hcut := cut_entry hskip hentry
        have hlt := Nat.lt_of_lt_of_le (length_entry_lt hentry)
          (Cursor.length_skipWhile_le isSeparator c)
        rw [hentry]
        rcases ih _ hlt ((reaches_of_entry hentry).over hskip) h rfl with he | hlater
        · rcases mem_put he with rfl | he
          · exact .inr (hcut.mono (List.subset_append_left _ _))
          · exact .inl he
        · exact .inr (hlater.mono (List.subset_append_right _ _))

end

end Arguments

/-! ## Tags -/

/-- The name and the arguments of a tag are cut out. -/
structure Bracket.CutFrom (source : Text) (spans : List Span) (b : Bracket) : Prop where
  name : Span.Cut source spans b.name
  arguments : ∀ arguments selfClosing, b.kind = .opening arguments selfClosing →
    ∀ e ∈ arguments.entries, Arguments.EntryCut source spans e

namespace Bracket

theorem CutFrom.mono {source : Text} {a b : List Span} {tag : Bracket} (h : tag.CutFrom source a)
    (hab : a ⊆ b) : tag.CutFrom source b :=
  ⟨h.name.mono hab, fun arguments selfClosing hkind e he =>
    (h.arguments arguments selfClosing hkind e he).mono hab⟩

section

variable {source : Text} {hi start : Nat} {context : Context} {c d : Cursor} {b : Bracket}
  (hc : c.Over (source.take hi))

include hc

theorem cut_name (hne : ¬ (c.takeWhile isNameByte).isEmpty = true) :
    Span.Cut source (nameSlices c) (c.takeWhile isNameByte) := by
  rw [nameSlices, if_neg hne]
  exact Span.cut_head (Cursor.slice_skipWhile hc _) []

theorem cutFrom_readClosing (h : readClosing context start c = some (b, d)) :
    b.CutFrom source (nameSlices c) := by
  unfold readClosing at h
  simp only at h
  split at h
  · cases h
  · rename_i hn
    cases h
    exact ⟨cut_name hc fun hempty => hn (by rw [hempty]; rfl), nofun⟩

theorem cutFrom_readOpening (h : readOpening context start c = some (b, d)) :
    b.CutFrom source (openingSlices c) := by
  unfold readOpening at h
  unfold openingSlices
  simp only at h ⊢
  split at h
  · cases h
  · rename_i hn
    rw [if_neg hn]
    split at h
    · cases h
    · rename_i arguments after hr
      cases h
      refine ⟨(cut_name hc fun hempty => hn (by rw [hempty]; rfl)).mono
        (List.subset_append_left _ _), ?_⟩
      rintro _ _ ⟨⟩ e he
      have hname := (Cursor.reaches_skipWhile isNameByte c).over hc
      rcases Arguments.cut_readInto hname hr he with he | hcut
      · cases he
      · exact hcut.mono (List.subset_append_right _ _)

theorem cutFrom_readSingle (hpeek : c.peek? = some leftBracket)
    (h : readSingle? context c = some (b, d)) : b.CutFrom source (singleSlices c) := by
  have hinner := (Cursor.reaches_next (Cursor.rest_ne_nil hpeek)).over hc
  unfold readSingle? at h
  unfold singleSlices
  simp only at h ⊢
  split at h
  · rename_i hslash
    rw [if_pos hslash]
    have hafter := Cursor.reaches_advance (Cursor.length_le_of_startsWith hslash)
    exact cutFrom_readClosing (hafter.over hinner) h
  · rename_i hslash
    rw [if_neg hslash]
    exact cutFrom_readOpening hinner h

/-- The words of a tag are cut out when it is read. -/
theorem cutFrom_read (hpeek : c.peek? = some leftBracket)
    (h : read? context c = some (b, d)) : b.CutFrom source (slices c) := by
  unfold read? at h
  unfold slices
  simp only at h
  split at h
  · cases h
  · rename_i b' after hsingle
    have hcut : b'.CutFrom source
        (singleSlices (if c.peekAt? 1 == some leftBracket then c.advance 1 else c)) := by
      split at hsingle
      · rename_i hlead
        have hpeek' : (c.advance 1).peek? = some leftBracket :=
          c.peek?_advance.trans (beq_iff_eq.1 hlead)
        rw [if_pos hlead]
        exact cutFrom_readSingle ((Cursor.reaches_next (Cursor.rest_ne_nil hpeek)).over hc) hpeek'
          hsingle
      · rename_i hlead
        rw [if_neg hlead]
        exact cutFrom_readSingle hc hpeek hsingle
    cases h
    exact ⟨hcut.name, hcut.arguments⟩

end

end Bracket

/-! ## Tokens -/

/-- The name is cut out of the source as one of the spans, and then written in lower case. -/
def Span.CutLower (source : Text) (spans : List Span) (name : Text) : Prop :=
  ∃ s ∈ spans, Text.lower (s.slice source) = name

theorem Span.CutLower.mono {source name : Text} {a b : List Span} (h : CutLower source a name)
    (hab : a ⊆ b) : CutLower source b name := by
  obtain ⟨s, hs, rfl⟩ := h
  exact ⟨s, hab hs, rfl⟩

/-- The names of a token and of its attributes are cut out. -/
def Token.CutFrom (source : Text) (spans : List Span) : Token → Prop
  | .start tag => Span.CutLower source spans tag.name ∧
      ∀ a ∈ tag.attributes, Span.CutLower source spans a.name
  | .finish name _ => Span.CutLower source spans name
  | .opaqueText _ => True

theorem Token.CutFrom.mono {source : Text} {a b : List Span} {t : Token} (h : t.CutFrom source a)
    (hab : a ⊆ b) : t.CutFrom source b := by
  cases t with
  | start tag => exact ⟨Span.CutLower.mono h.1 hab, fun x hx => Span.CutLower.mono (h.2 x hx) hab⟩
  | finish name span => exact Span.CutLower.mono h hab
  | opaqueText span => trivial

section

variable {source : Text} {c d : Cursor} (hc : c.Over source)

include hc

theorem Attribute.name_of_read {a : Attribute} (h : read? c = some (a, d)) :
    a.name = Text.lower
      ((c.spanTo ((c.advance 1).skipWhile isAttributeNameByte)).slice source) := by
  rw [← hc.slice_eq (Nat.le_refl _)]
  unfold read? at h
  simp only at h
  split at h
  · obtain ⟨⟨v, after⟩, -, he⟩ := Option.map_eq_some_iff.1 h
    cases he
    rfl
  · cases h
    rfl

theorem Attribute.cut_readAll {as : List Attribute} {s : Bool} (h : readAll? c = some (as, s, d))
    {a : Attribute} (ha : a ∈ as) : Span.CutLower source (slices c) a.name := by
  induction hn : c.rest.length using Nat.strongRecOn generalizing c as with
  | _ n ih =>
    subst hn
    have hskip := (Cursor.reaches_skipWhile isSpace c).over hc
    have hle := Cursor.length_skipWhile_le isSpace c
    rw [readAll?] at h
    simp only at h
    split at h
    · cases h
    · rename_i b rest hrest
      have hne : (c.skipWhile isSpace).rest ≠ [] := by simp [hrest]
      have hnext := Nat.lt_of_lt_of_le (Cursor.length_advance_lt (by decide : 0 < 1) hne) hle
      split at h
      · cases h
        cases ha
      · rename_i hgreater
        split at h
        · rename_i hslash
          split at h
          · cases h
            cases ha
          · rename_i hend
            rw [slices_of_slash hrest hgreater hslash hend]
            exact ih _ hnext ((Cursor.reaches_next hne).over hskip) h ha rfl
        · rename_i hslash
          split at h
          · cases h
          · rename_i first after hfirst
            obtain ⟨⟨more, s', stop⟩, hmore, he⟩ := Option.map_eq_some_iff.1 h
            cases he
            rw [slices_of_read hrest hgreater hslash hfirst]
            rcases List.mem_cons.1 ha with rfl | ha
            · exact ⟨_, List.mem_cons_self, (name_of_read hskip hfirst).symm⟩
            · have hlt := Nat.lt_of_lt_of_le (length_read_lt hne hfirst) hle
              have hafter := (reaches_of_read hne hfirst).1.over hskip
              exact (ih _ hlt hafter hmore ha rfl).mono (List.subset_cons_self _ _)

theorem Token.slice_nameSlice :
    (nameSlice c).slice source = c.takeWhile isElementNameByte := by
  have hc' : c.Over (source.take source.length) := by rwa [List.take_length]
  exact Cursor.slice_skipWhile hc' _

/-- The names in a token are cut out when it is read. -/
theorem Token.cutFrom_read {t : Token} (h : read? c = some (t, d)) :
    t.CutFrom source (slices c) := by
  have hname : ∀ {n}, n ≤ c.rest.length → (nameSlice (c.advance n)).slice source =
      (c.advance n).takeWhile isElementNameByte := fun hn =>
    slice_nameSlice ((Cursor.reaches_advance hn).over hc)
  unfold read? at h
  split at h
  · rename_i first second rest hrest
    have hlen : 2 ≤ c.rest.length := by simp [hrest]
    rw [slices_of_rest hrest]
    split at h
    · cases h
    · rename_i hless
      rw [if_neg hless]
      split at h
      · cases h
        trivial
      · split at h
        · unfold readDeclaration? at h
          simp only at h
          split at h
          · cases h
          · cases h
            trivial
        · rename_i hdeclaration
          rw [if_neg hdeclaration]
          split at h
          · rename_i hfinish
            rw [if_pos hfinish]
            unfold readFinish? at h
            simp only at h
            split at h
            · cases h
            · cases h
              exact ⟨_, List.mem_cons_self, congrArg Text.lower (hname hlen)⟩
          · rename_i hfinish
            rw [if_neg hfinish]
            split at h
            · rename_i hletter
              rw [if_pos hletter]
              obtain ⟨⟨attributes, selfClosing, after⟩, hattributes, he⟩ :=
                Option.map_eq_some_iff.1 h
              cases he
              have hlt : 1 ≤ c.rest.length := Nat.le_of_succ_le hlen
              have hover := ((Cursor.reaches_advance hlt).trans
                (Cursor.reaches_skipWhile isElementNameByte _)).over hc
              exact ⟨⟨_, List.mem_cons_self, congrArg Text.lower (hname hlt)⟩, fun a ha =>
                (Attribute.cut_readAll hover hattributes ha).mono (List.subset_cons_self _ _)⟩
            · cases h
  · cases h

end

/-! ## The pass -/

namespace Scan

variable {source : Text}

/-- The names of each token that a scan finds are cut out. -/
theorem cutFrom_of_mem_tokens {t : Token} (ht : t ∈ tokens source) :
    t.CutFrom source (slices source) := by
  obtain ⟨d, e, hd, hread, hslices, -⟩ := readIn_of_mem_tokens ht
  exact (Token.cutFrom_read (hd.over (Cursor.over_ofText source)) hread).mono hslices

/-- What is cut out of a region is cut out by the pass. -/
theorem regionSlices_subset {r : Region} (hr : r ∈ regions source) :
    regionSlices source r.span ⊆ slices source := by
  obtain ⟨tag, ht, hcases⟩ := exists_token_of_mem_regions hr
  obtain ⟨d, e, -, -, -, hinside⟩ := readIn_of_mem_tokens ht
  refine List.Subset.trans ?_ hinside
  intro s hs
  rw [insideSlices]
  rcases hcases with hvalue | ⟨element, hraw, hspan⟩
  · exact List.mem_append_left _ (List.mem_flatMap.2 ⟨r.span, hvalue, hs⟩)
  · rw [hspan] at hs
    rw [hraw]
    exact List.mem_append_right _ hs

/-- The words of each tag that a scan finds are cut out. -/
theorem cutFrom_of_mem_tags (h : source.Regular) {b : Bracket} (hb : b ∈ tags source) :
    b.CutFrom source (slices source) := by
  rcases readIn_of_mem_tags hb with ⟨d, e, hd, hpeek, hread, hslices⟩ | ⟨r, hr, hb⟩
  · have hover : d.Over (source.take source.length) := by
      rw [List.take_length]
      exact hd.over (Cursor.over_ofText source)
    exact (Bracket.cutFrom_read hover hpeek hread).mono hslices
  · obtain ⟨d, e, hd, hpeek, hread, hslices⟩ := exists_read_of_mem_brackets hb
    have hover := hd.over (Cursor.over_slice (h.fits_of_mem_regions hr))
    refine (Bracket.cutFrom_read hover hpeek hread).mono ?_
    exact List.Subset.trans hslices
      (List.Subset.trans (List.subset_cons_self _ _) (regionSlices_subset hr))

end Scan

end Shortcode
