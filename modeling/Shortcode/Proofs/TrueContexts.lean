import Shortcode.Proofs.TokenPlaces

/-!
# Contexts are true

Tags and tokens never overlap in part.  A tag lies apart from a token, in one of its attribute
values, or around it with the whole token in its content.  Which of these it is follows from the
context of the tag, and the context from the place: a tag has the context of an attribute iff it
lies in the value of that attribute.

    Scan.ContextsTrue source pairs                                          (contextsTrue_ofText)
-/

namespace Shortcode

/-! ## Attribute values -/

/-- The span lies in the value of an attribute with this name. -/
def StartTag.HoldsInValue (tag : StartTag) (name : Text) (span : Span) : Prop :=
  ∃ a ∈ tag.attributes, a.name = name ∧
    ∃ v, a.value = some v ∧ v.start ≤ span.start ∧ span.stop ≤ v.stop

namespace Attribute

/-- Attributes that have a value, each with its value. -/
def valued (as : List Attribute) : List (Attribute × Span) :=
  as.filterMap fun a => a.value.map (a, ·)

theorem mem_valued {as : List Attribute} {a : Attribute} {v : Span} :
    (a, v) ∈ valued as ↔ a ∈ as ∧ a.value = some v := by
  simp only [valued, List.mem_filterMap, Option.map_eq_some_iff, Prod.mk.injEq]
  constructor
  · rintro ⟨a', ha, v', hv, rfl, rfl⟩
    exact ⟨ha, hv⟩
  · rintro ⟨ha, hv⟩
    exact ⟨a, ha, v, hv, rfl, rfl⟩

theorem map_snd_valued (as : List Attribute) : (valued as).map (·.2) = values as := by
  rw [valued, values, List.map_filterMap]
  congr 1
  funext a
  cases a.value <;> rfl

end Attribute

/-- A span that holds something lies in the values of one attribute only. -/
theorem Token.Proper.attribute_eq {tag : StartTag} (h : Token.Proper (.start tag))
    {a a' : Attribute} {v v' span : Span} (ha : a ∈ tag.attributes) (hv : a.value = some v)
    (ha' : a' ∈ tag.attributes) (hv' : a'.value = some v') (hspan : span.start < span.stop)
    (hin : v.start ≤ span.start ∧ span.stop ≤ v.stop)
    (hin' : v'.start ≤ span.start ∧ span.stop ≤ v'.stop) : a = a' := by
  have horder := h.values_inOrder tag rfl
  rw [← Attribute.map_snd_valued] at horder
  rcases horder.eq_or_apart (Attribute.mem_valued.2 ⟨ha, hv⟩)
    (Attribute.mem_valued.2 ⟨ha', hv'⟩) with heq | hle | hle
  · exact congrArg Prod.fst heq
  · dsimp only at hle
    omega
  · dsimp only at hle
    omega

/-! ## What true contexts mean -/

namespace Scan

/-- The tag `o` lies apart from the token, around it or in one of its attribute values. -/
inductive Meets (o : Occurrence) (t : Token) : Prop
  | before : o.span.stop ≤ t.span.start → Meets o t
  | behind : t.span.stop ≤ o.span.start → Meets o t
  | inContent {c : Span} : o.context = .body → o.form = .enclosing → o.content = some c →
      c.start ≤ t.span.start → t.span.stop ≤ c.stop → Meets o t
  | inValue {tag : StartTag} {name : Text} : t = .start tag → tag.HoldsInValue name o.span →
      Meets o t

/-- The tags of an enclosing occurrence and what stands between them are parts of one region, or
all of ordinary text: no region reaches over an end of the content then. -/
structure InOneRegion (source : Text) (o : Occurrence) (opener close : Bracket) (c : Span) :
    Prop where
  opener_mem : opener ∈ tags source
  close_mem : close ∈ tags source
  opener_span : opener.span = ⟨o.core.start, c.start⟩
  close_span : close.span = ⟨c.stop, o.core.stop⟩
  opener_context : opener.context = o.context
  close_context : close.context = o.context
  region : (o.context = .body ∧ ∀ r ∈ regions source, o.span.stop ≤ r.span.start ∨
      r.span.stop ≤ o.span.start ∨ c.start ≤ r.span.start ∧ r.span.stop ≤ c.stop) ∨
    ∃ r ∈ regions source, r.context = o.context ∧ r.span.start ≤ o.span.start ∧
      o.span.stop ≤ r.span.stop

/-- The context of each tag says where among the tokens it stands. -/
structure ContextsTrue (source : Text) (pairs : Text → Bool) : Prop where
  meets : ∀ o ∈ (ofText source pairs).occurrences, ∀ t ∈ (ofText source pairs).markup, Meets o t
  /-- A tag has the context of an attribute iff it lies in a value of that attribute. -/
  value : ∀ o ∈ (ofText source pairs).occurrences, ∀ element name,
    (∃ n, o.context = .attributeValue n element name) ↔
      ∃ tag, .start tag ∈ (ofText source pairs).markup ∧ tag.name = element ∧
        tag.HoldsInValue name o.span
  /-- A tag of raw text lies behind the start tag of the element, in front of the next token. -/
  verbatim : ∀ o ∈ (ofText source pairs).occurrences, ∀ n element,
    o.context = .verbatim n element →
      ∃ pre tag post, (ofText source pairs).markup = pre ++ .start tag :: post ∧
        tag.rawText? = some element ∧ tag.span.stop ≤ o.span.start ∧
        ∀ t ∈ post, o.span.stop ≤ t.span.start
  /-- A tag of ordinary text lies in no token. -/
  body : ∀ o ∈ (ofText source pairs).occurrences, o.context = .body →
    ∀ t ∈ (ofText source pairs).markup,
      ¬ (t.span.start ≤ o.span.start ∧ o.span.stop ≤ t.span.stop)
  /-- The content lies where both tags lie. -/
  content : ∀ o ∈ (ofText source pairs).occurrences, o.form = .enclosing →
    ∃ opener close c, o.content = some c ∧ InOneRegion source o opener close c

/-! ## Places of occurrences -/

section

variable {source : Text} {pairs : Text → Bool} {o : Occurrence}
  (ho : o ∈ (ofText source pairs).occurrences)

include ho

theorem origin_of_mem : Occurrence.Origin pairs (tags source) o := by
  rw [occurrences_ofText] at ho
  exact (Occurrence.pairing_ofBrackets pairs (tags source)).origin ho

theorem span_of_mem : o.span.start < o.span.stop :=
  (occurrences_inOrder source pairs).2 o (occurrences_ofText source pairs ▸ ho)

/-- Only enclosing occurrences have content. -/
theorem form_of_content {c : Span} (hc : o.content = some c) : o.form = .enclosing := by
  cases origin_of_mem ho with
  | single _ _ => cases hc
  | pair _ _ _ _ _ => rfl

/-- A tag in a value of an attribute has the context of that attribute. -/
theorem context_of_holdsInValue {tag : StartTag} (htag : .start tag ∈ tokens source) {name : Text}
    (h : tag.HoldsInValue name o.span) : ∃ n, o.context = .attributeValue n tag.name name := by
  obtain ⟨a, ha, rfl, v, hv, hstart, hstop⟩ := h
  have hspan := span_of_mem ho
  have hproper := proper_of_mem_tokens htag
  have hin := hproper.value_bounds ha hv
  have hle : tag.span.stop ≤ ((Token.start tag).extent source).stop :=
    Token.span_stop_le_extent source (.start tag)
  have htagSpan : (Token.start tag).span = tag.span := rfl
  cases occurrence_situated ho with
  | body _ htokens =>
    rcases htokens _ htag with hlt | hlt | ⟨c, hc, hlt, -⟩
    · rw [htagSpan] at hlt
      omega
    · omega
    · have hcontent := content_bounds ho hc
      rw [htagSpan] at hlt
      omega
  | @value tag' a' v' n htag' ha' hv' hcontext hstart' hstop' =>
    have hin' := (proper_of_mem_tokens htag').value_bounds ha' hv'
    have hle' : tag'.span.stop ≤ ((Token.start tag').extent source).stop :=
      Token.span_stop_le_extent source (.start tag')
    have htagSpan' : (Token.start tag').span = tag'.span := rfl
    rcases token_eq_or_apart htag htag' with heq | hlt | hlt
    · cases heq
      rw [hproper.attribute_eq ha hv ha' hv' hspan ⟨hstart, hstop⟩ ⟨hstart', hstop'⟩]
      exact ⟨n, hcontext⟩
    · rw [htagSpan'] at hlt
      omega
    · rw [htagSpan] at hlt
      omega
  | @verbatim tag' element n htag' hraw _ hstart' hstop' =>
    have hlt' : tag'.span.start < tag'.span.stop := (proper_of_mem_tokens htag').start_lt_stop
    have htagSpan' : (Token.start tag').span = tag'.span := rfl
    rcases token_eq_or_apart htag htag' with heq | hlt | hlt
    · cases heq
      omega
    · rw [htagSpan'] at hlt
      omega
    · rw [Token.extent_of_rawText source hraw, htagSpan] at hlt
      dsimp only at hlt
      omega

theorem meets_token {t : Token} (ht : t ∈ tokens source) : Meets o t := by
  have hle := t.span_stop_le_extent source
  cases occurrence_situated ho with
  | body hcontext htokens =>
    rcases htokens t ht with hlt | hlt | ⟨c, hc, hstart, hstop⟩
    · exact .before hlt
    · exact .behind (Nat.le_trans hle hlt)
    · exact .inContent hcontext (form_of_content ho hc) hc hstart (Nat.le_trans hle hstop)
  | @value tag a v n htag ha hv _ hstart hstop =>
    have hin := (proper_of_mem_tokens htag).value_bounds ha hv
    have hle' : tag.span.stop ≤ ((Token.start tag).extent source).stop :=
      Token.span_stop_le_extent source (.start tag)
    have htagSpan : (Token.start tag).span = tag.span := rfl
    rcases token_eq_or_apart ht htag with rfl | hlt | hlt
    · exact .inValue rfl ⟨a, ha, rfl, v, hv, hstart, hstop⟩
    · rw [htagSpan] at hlt
      exact .behind (by omega)
    · exact .before (by omega)
  | @verbatim tag element n htag hraw _ hstart hstop =>
    have hlt' : tag.span.start < tag.span.stop := (proper_of_mem_tokens htag).start_lt_stop
    have htagSpan : (Token.start tag).span = tag.span := rfl
    rcases token_eq_or_apart ht htag with rfl | hlt | hlt
    · exact .behind hstart
    · rw [htagSpan] at hlt
      exact .behind (by omega)
    · rw [Token.extent_of_rawText source hraw] at hlt
      exact .before (Nat.le_trans hstop hlt)

/-- A tag of ordinary text may hold a token, but no token holds it. -/
theorem not_in_token (hbody : o.context = .body) {t : Token} (ht : t ∈ tokens source) :
    ¬ (t.span.start ≤ o.span.start ∧ o.span.stop ≤ t.span.stop) := by
  have hspan := span_of_mem ho
  cases meets_token ho ht with
  | before hle => omega
  | behind hle => omega
  | inContent _ _ hc hstart _ =>
    have hcontent := content_bounds ho hc
    omega
  | @inValue tag _ heq hholds =>
    subst heq
    obtain ⟨n, hcontext⟩ := context_of_holdsInValue ho ht hholds
    exact nomatch hbody.symm.trans hcontext

theorem exists_rawText_of_verbatim {n : Nat} {element : Text}
    (hcontext : o.context = .verbatim n element) : ∃ pre tag post,
      tokens source = pre ++ .start tag :: post ∧ tag.rawText? = some element ∧
        tag.span.stop ≤ o.span.start ∧ ∀ t ∈ post, o.span.stop ≤ t.span.start := by
  cases occurrence_situated ho with
  | body h _ => exact nomatch hcontext.symm.trans h
  | value _ _ _ h _ _ => exact nomatch hcontext.symm.trans h
  | @verbatim tag element' m htag hraw h hstart hstop =>
    cases hcontext.symm.trans h
    obtain ⟨pre, post, hmarkup⟩ := List.append_of_mem htag
    refine ⟨pre, tag, post, hmarkup, hraw, hstart, fun t ht => ?_⟩
    -- the tokens behind the start tag stand behind the raw text too
    have horder := extents_inOrder source
    rw [hmarkup, List.map_append] at horder
    obtain ⟨_, _, _, _, hrest⟩ := Span.inOrder_append.1 horder
    have hle : ((Token.start tag).extent source).stop ≤ (t.extent source).start :=
      (hrest.bounds (List.mem_map_of_mem ht)).1
    rw [Token.extent_of_rawText source hraw, t.extent_start] at hle
    exact Nat.le_trans hstop hle

/-! ## Regions -/

omit ho in
/-- A region lies in the extent of the token that it belongs to. -/
theorem exists_extent_of_mem_regions {r : Region} (hr : r ∈ regions source) :
    ∃ t ∈ tokens source, t.span.start ≤ r.span.start ∧ r.span.stop ≤ (t.extent source).stop := by
  obtain ⟨t, ht, m, hm⟩ := Region.mem_ofTokens hr
  have hin := (Region.ofToken_inOrder source m (proper_of_mem_tokens ht)).bounds
    (List.mem_map_of_mem hm)
  exact ⟨t, ht, hin.1, hin.2.2⟩

/-- A region lies apart from a tag of ordinary text or in its content. -/
theorem region_of_body (hbody : o.context = .body) {c : Span} (hc : o.content = some c)
    {r : Region} (hr : r ∈ regions source) : o.span.stop ≤ r.span.start ∨
      r.span.stop ≤ o.span.start ∨ c.start ≤ r.span.start ∧ r.span.stop ≤ c.stop := by
  obtain ⟨t, ht, hstart, hstop⟩ := exists_extent_of_mem_regions hr
  cases occurrence_situated ho with
  | value _ _ _ h _ _ => exact nomatch hbody.symm.trans h
  | verbatim _ _ h _ _ => exact nomatch hbody.symm.trans h
  | body _ htokens =>
    rcases htokens t ht with hle | hle | ⟨c', hc', hlo, hhi⟩
    · exact .inl (Nat.le_trans hle hstart)
    · exact .inr (.inl (Nat.le_trans hstop hle))
    · cases hc.symm.trans hc'
      exact .inr (.inr ⟨Nat.le_trans hlo hstart, Nat.le_trans hstop hhi⟩)

/-- The tags of an enclosing occurrence and its content are in one region. -/
theorem exists_inOneRegion (hform : o.form = .enclosing) :
    ∃ opener close c, o.content = some c ∧ InOneRegion source o opener close c := by
  have horigin := origin_of_mem ho
  cases horigin with
  | single _ halone => exact absurd hform halone.form_ne
  | @pair pre mid after b close arguments he hopener hmid hclose hpairs =>
    have hb : b ∈ tags source := by simp [he]
    have hclosing : close ∈ tags source := by simp [he]
    have hcontext := Bracket.context_eq_of_closes hclose
    have hcore : (Occurrence.between b close arguments).core = ⟨b.span.start, close.span.stop⟩ :=
      Occurrence.core_between (proper_of_mem_tags hb) arguments
    obtain ⟨hstart, -, hstop⟩ := Occurrence.between_span (proper_of_mem_tags hb)
      (proper_of_mem_tags hclosing) (outer_stop_le he) arguments
    refine ⟨b, close, _, rfl, hb, hclosing, by rw [hcore], by rw [hcore], rfl, hcontext, ?_⟩
    rcases tag_cases hb with ⟨hbody, -⟩ | ⟨r, hr, hr1, hr2, -, -⟩
    · exact .inl ⟨hbody, fun r hr => region_of_body ho hbody rfl hr⟩
    · rcases tag_cases hclosing with ⟨hbody, -⟩ | ⟨r', hr', hr1', -, hr3', -⟩
      · exact absurd ((hr1.symm.trans hcontext.symm).trans hbody) (Region.context_ne_body hr)
      · have heq : r' = r := Region.eq_of_context_eq hr' hr (by rw [← hr1', ← hr1, hcontext])
        subst heq
        exact .inr ⟨r', hr', hr1.symm, Nat.le_trans hr2 hstart, Nat.le_trans hstop hr3'⟩

end

/-! ## Main statement -/

/-- **Contexts are true.**  Tags and tokens do not overlap in part, the context of a tag tells where
it stands, and the content of a tag stands where the tag does. -/
theorem contextsTrue_ofText (source : Text) (pairs : Text → Bool) : ContextsTrue source pairs where
  meets _ ho _ ht := meets_token ho ht
  value o ho element name := by
    constructor
    · rintro ⟨n, hcontext⟩
      cases occurrence_situated ho with
      | body h _ => exact nomatch hcontext.symm.trans h
      | verbatim _ _ h _ _ => exact nomatch hcontext.symm.trans h
      | @value tag a v m htag ha hv h hstart hstop =>
        cases hcontext.symm.trans h
        exact ⟨tag, htag, rfl, a, ha, rfl, v, hv, hstart, hstop⟩
    · rintro ⟨tag, htag, rfl, hholds⟩
      exact context_of_holdsInValue ho htag hholds
  verbatim _ ho _ _ hcontext := exists_rawText_of_verbatim ho hcontext
  body _ ho hbody _ ht := not_in_token ho hbody ht
  content _ ho hform := exists_inOneRegion ho hform

/-- A tag around a whole link, whose address holds a tag of its own that is left to it, and a tag in
an address. -/
example :
    (let scan := ofText (Text.ofString "[b]<a href='[u]'>[/b]<a href='[v]'>") fun _ => true;
    scan.occurrences.map (fun o => (o.context, o.span, o.content)) =
        [(.body, ⟨0, 21⟩, some ⟨3, 17⟩),
          (.attributeValue 2 (Text.ofString "a") (Text.ofString "href"), ⟨30, 33⟩, none)] ∧
      scan.markup.map Token.span = [⟨3, 17⟩, ⟨21, 35⟩]) := by
  decide +kernel

end Scan

end Shortcode
