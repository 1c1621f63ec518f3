import ProviderCatalog.Proofs.Go.LongestTokens
import ProviderCatalog.Proofs.Go.Sources

/-!
# A comment between two tokens

Blanks and comments are split off in front of each token, up to the first character that belongs to
none. A comment on one line with a blank on each side can be put between two tokens, before, behind
or between the blanks and comments that stand there: it becomes a part of them, and all tokens are
the same as before. The one way in which it could do more is that its end closes a comment that was
opened before it and never closed.

## Main definitions

* `IsBody`: what can stand in a comment.
* `blockComment`: a comment with a blank on each side.
* `Passes`: the blanks and comments that lead from one state to another.
* `opensComment`: two tokens that look like the beginning of a comment.

## Main results

* `takeLeading_append`, `passes_takeLeading`: blanks and comments are split off in parts.
* `tokens?_blockComment`: the tokens of a source with a comment in it.
-/

namespace ProviderCatalog.Go

variable {c : Char} {l l₁ l₂ body cs after : List Char} {s s' : CommentState} {b : Bool}

/-! ### Blanks and comments -/

/-- What can stand in a comment: neither its end nor the character with number zero. -/
def IsBody (body : List Char) : Prop := '\x00' ∉ body ∧ ¬['*', '/'] <:+: body

instance (body : List Char) : Decidable (IsBody body) :=
  inferInstanceAs (Decidable (_ ∧ _))

/-- A comment with a blank on each side. -/
def blockComment (body : List Char) : List Char := ' ' :: '/' :: '*' :: (body ++ ['*', '/', ' '])

theorem isBody_nil : IsBody [] := ⟨List.not_mem_nil, by simp⟩

theorem isBody_cons : IsBody (c :: body) ↔
    c ≠ '\x00' ∧ ¬(c = '*' ∧ body.head? = some '/') ∧ IsBody body := by
  have hstart : ['*', '/'] <+: c :: body ↔ c = '*' ∧ body.head? = some '/' := by
    rw [List.cons_prefix_cons, eq_comm]
    cases body <;> simp [eq_comm]
  rw [IsBody, IsBody, List.mem_cons, not_or, List.infix_cons_iff, not_or, hstart]
  tauto

/-- The blanks and comments that lead from one state to another, with the mark whether a line feed
outside comments is among them. -/
inductive Passes : CommentState → List Char → CommentState → Bool → Prop where
  | outside : Passes .outside [] .outside false
  | line : Passes .line [] .line false
  | separator {c : Char} {l : List Char} {s : CommentState} {b : Bool} (hc : isSeparator c = true)
      (hne : c ≠ '\n') (h : Passes .outside l s b) : Passes .outside (c :: l) s b
  | lineFeed {l : List Char} {s : CommentState} {b : Bool} (h : Passes .outside l s b) :
      Passes .outside ('\n' :: l) s true
  | lineStart {l : List Char} {s : CommentState} {b : Bool} (h : Passes .line l s b) :
      Passes .outside ('/' :: '/' :: l) s b
  | lineChar {c : Char} {l : List Char} {s : CommentState} {b : Bool} (hne : c ≠ '\n')
      (hnul : c ≠ '\x00') (h : Passes .line l s b) : Passes .line (c :: l) s b
  | lineEnd {l : List Char} {s : CommentState} {b : Bool} (h : Passes .outside l s b) :
      Passes .line ('\n' :: l) s true
  | blockStart {l : List Char} {s : CommentState} {b : Bool} (h : Passes .block l s b) :
      Passes .outside ('/' :: '*' :: l) s b
  | blockEnd {body l : List Char} {s : CommentState} {b : Bool} (hbody : IsBody body)
      (h : Passes .outside l s b) : Passes .block (body ++ '*' :: '/' :: l) s b

theorem closesBlock_append (hbody : IsBody body) (cs : List Char) :
    closesBlock (body ++ '*' :: '/' :: cs) = true := by
  induction body with
  | nil => rfl
  | cons c body ih =>
    obtain ⟨hnul, hend, hrest⟩ := isBody_cons.mp hbody
    rw [List.cons_append, closesBlock]
    · exact ih hrest
    · rintro tail rfl htail
      cases body with
      | nil => exact absurd (List.cons.inj htail).1 (by decide)
      | cons d body => exact hend ⟨rfl, congrArg some (List.cons.inj htail).1⟩
    · exact hnul

/-! Each of the ways in which a character is split off, as an equation of its own. -/

theorem takeLeading_lineFeed (cs : List Char) : takeLeading .outside ('\n' :: cs) =
    { (takeLeading .outside cs).push '\n' with lineFeed := true } := rfl

theorem takeLeading_lineEnd (cs : List Char) : takeLeading .line ('\n' :: cs) =
    { (takeLeading .outside cs).push '\n' with lineFeed := true } := rfl

theorem takeLeading_lineStart (cs : List Char) : takeLeading .outside ('/' :: '/' :: cs) =
    ((takeLeading .line cs).push '/').push '/' := rfl

theorem takeLeading_blockStart (cs : List Char) : takeLeading .outside ('/' :: '*' :: cs) =
    if closesBlock cs then ((takeLeading .block cs).push '*').push '/'
    else ⟨[], false, '/' :: '*' :: cs⟩ := rfl

theorem takeLeading_outside (hne : c ≠ '\n')
    (hslash : c = '/' → cs.head? ≠ some '/' ∧ cs.head? ≠ some '*') :
    takeLeading .outside (c :: cs) =
      if isSeparator c then (takeLeading .outside cs).push c else ⟨[], false, c :: cs⟩ := by
  rw [takeLeading.eq_def]
  split <;> simp_all

theorem takeLeading_lineChar (hne : c ≠ '\n') (hnul : c ≠ '\x00') :
    takeLeading .line (c :: cs) = (takeLeading .line cs).push c := by
  rw [takeLeading.eq_def]
  split <;> simp_all

theorem takeLeading_blockChar (hend : ¬(c = '*' ∧ cs.head? = some '/')) :
    takeLeading .block (c :: cs) = (takeLeading .block cs).push c := by
  rw [takeLeading.eq_def]
  split <;> simp_all

theorem takeLeading_block (hbody : IsBody body) (cs : List Char) :
    takeLeading .block (body ++ '*' :: '/' :: cs) =
      ⟨body ++ '*' :: '/' :: (takeLeading .outside cs).text, (takeLeading .outside cs).lineFeed,
        (takeLeading .outside cs).rest⟩ := by
  induction body with
  | nil => rfl
  | cons c body ih =>
    obtain ⟨-, hend, hrest⟩ := isBody_cons.mp hbody
    rw [List.cons_append, takeLeading_blockChar, ih hrest]
    · rfl
    · rintro ⟨rfl, hslash⟩
      cases body with
      | nil => exact absurd (Option.some.inj hslash) (by decide)
      | cons d body => exact hend ⟨rfl, hslash⟩

theorem takeLeading_separator (hc : isSeparator c = true) (hne : c ≠ '\n') (cs : List Char) :
    takeLeading .outside (c :: cs) = (takeLeading .outside cs).push c := by
  have hslash : c ≠ '/' := by
    rintro rfl
    exact absurd hc (by decide)
  rw [takeLeading_outside hne fun h => absurd h hslash, if_pos hc]

/-- Blanks and comments are split off, and then what follows them. -/
theorem takeLeading_append (h : Passes s l s' b) (cs : List Char) :
    takeLeading s (l ++ cs) = ⟨l ++ (takeLeading s' cs).text, b || (takeLeading s' cs).lineFeed,
      (takeLeading s' cs).rest⟩ := by
  induction h with
  | outside => rfl
  | line => rfl
  | separator hc hne h ih =>
    rw [List.cons_append, takeLeading_separator hc hne, ih]
    rfl
  | lineFeed h ih => rw [List.cons_append, takeLeading_lineFeed, ih]; rfl
  | lineStart h ih => rw [List.cons_append, List.cons_append, takeLeading_lineStart, ih]; rfl
  | lineChar hne hnul h ih => rw [List.cons_append, takeLeading_lineChar hne hnul, ih]; rfl
  | lineEnd h ih => rw [List.cons_append, takeLeading_lineEnd, ih]; rfl
  | @blockStart l s b h ih =>
    have hcloses : closesBlock (l ++ cs) = true := by
      cases h with
      | blockEnd hbody h =>
        rw [List.append_assoc]
        exact closesBlock_append hbody _
    rw [List.cons_append, List.cons_append, takeLeading_blockStart, if_pos hcloses, ih]
    rfl
  | blockEnd hbody h ih =>
    rw [List.append_assoc, List.cons_append, List.cons_append, takeLeading_block hbody, ih]
    simp

theorem Passes.ne_block (h : Passes s l s' b) : s' ≠ .block := by
  induction h with
  | outside => exact nofun
  | line => exact nofun
  | _ => assumption

/-- Nothing can be split off in a state. -/
abbrev Stops (s : CommentState) (cs : List Char) : Prop := takeLeading s cs = ⟨[], false, cs⟩

/-- What is split off leads to a state in which nothing more can be split off. -/
theorem passes_takeLeading (s : CommentState) (cs : List Char)
    (hs : s = .block → closesBlock cs = true) :
    ∃ s', Passes s (takeLeading s cs).text s' (takeLeading s cs).lineFeed ∧
      Stops s' (takeLeading s cs).rest := by
  fun_induction takeLeading s cs with
  | case1 cs ih =>
    obtain ⟨s', h, hstops⟩ := ih (by simp)
    exact ⟨s', .lineStart h, hstops⟩
  | case2 cs hcloses ih =>
    obtain ⟨s', h, hstops⟩ := ih fun _ => hcloses
    exact ⟨s', .blockStart h, hstops⟩
  | case3 cs hcloses =>
    exact ⟨.outside, .outside, by rw [Stops, takeLeading_blockStart, if_neg hcloses]⟩
  | case4 cs _ ih =>
    obtain ⟨s', h, hstops⟩ := ih (by simp)
    exact ⟨s', .lineFeed h, hstops⟩
  | case5 c cs _ _ hne hc ih =>
    obtain ⟨s', h, hstops⟩ := ih (by simp)
    exact ⟨s', .separator hc hne h, hstops⟩
  | case6 c cs hline hblock hne hc =>
    refine ⟨.outside, .outside, ?_⟩
    rw [Stops, takeLeading_outside hne, if_neg hc]
    rintro rfl
    exact ⟨fun h => hline _ rfl (List.eq_cons_of_mem_head? h),
      fun h => hblock _ rfl (List.eq_cons_of_mem_head? h)⟩
  | case7 cs _ ih =>
    obtain ⟨s', h, hstops⟩ := ih (by simp)
    exact ⟨s', .lineEnd h, hstops⟩
  | case8 cs => exact ⟨.line, .line, rfl⟩
  | case9 c cs hne hnul ih =>
    obtain ⟨s', h, hstops⟩ := ih (by simp)
    exact ⟨s', .lineChar hne hnul h, hstops⟩
  | case10 cs ih =>
    obtain ⟨s', h, hstops⟩ := ih (by simp)
    exact ⟨s', .blockEnd isBody_nil h, hstops⟩
  | case11 c cs hend ih =>
    have hnul : c ≠ '\x00' := by
      rintro rfl
      exact absurd (hs rfl) Bool.false_ne_true
    have hcloses : closesBlock cs = true := by
      rw [← hs rfl, closesBlock]
      · exact hend
      · exact hnul
    obtain ⟨s', h, hstops⟩ := ih fun _ => hcloses
    have hcs := takeLeading_eq .block cs
    refine ⟨s', ?_, hstops⟩
    rw [Leading.push_text]
    generalize (takeLeading .block cs).text = text at h hcs
    cases h with
    | @blockEnd body l _ _ hbody h =>
      rw [← List.cons_append]
      refine .blockEnd (isBody_cons.mpr ⟨hnul, ?_, hbody⟩) h
      rintro ⟨rfl, hslash⟩
      obtain ⟨rest, rfl⟩ := List.head?_eq_some_iff.mp hslash
      exact hend _ rfl hcs.symm
  | case12 s =>
    cases s with
    | outside => exact ⟨.outside, .outside, rfl⟩
    | line => exact ⟨.line, .line, rfl⟩
    | block => exact absurd (hs rfl) Bool.false_ne_true

theorem passes_line (h : ∀ c ∈ l, c ≠ '\n' ∧ c ≠ '\x00') : Passes .line l .line false := by
  induction l with
  | nil => exact .line
  | cons c l ih =>
    obtain ⟨⟨hne, hnul⟩, hl⟩ := List.forall_mem_cons.mp h
    exact .lineChar hne hnul (ih hl)

/-- A comment leads from a state to the same, and no line feed stands in it. -/
theorem passes_blockComment (hbody : IsBody body) (hline : '\n' ∉ body) (hs : s ≠ .block) :
    Passes s (blockComment body) s false := by
  cases s with
  | outside =>
    have hend : Passes .block (body ++ '*' :: '/' :: [' ']) .outside false :=
      .blockEnd hbody (.separator rfl (by decide) .outside)
    exact .separator rfl (by decide) (.blockStart hend)
  | line =>
    refine passes_line ?_
    simp only [blockComment, List.mem_cons, List.mem_append, List.not_mem_nil, or_false]
    rintro c (rfl | rfl | rfl | hc | rfl | rfl | rfl)
    · decide
    · decide
    · decide
    · exact ⟨fun h => hline (h ▸ hc), fun h => hbody.1 (h ▸ hc)⟩
    · decide
    · decide
    · decide
  | block => exact absurd rfl hs

/-- A comment between the parts of what is split off is split off with them. -/
theorem takeLeading_blockComment {rest : List Char} (hbody : IsBody body)
    (hline : '\n' ∉ body) (hl₁ : (takeLeading .outside l₁).rest = [])
    (h : takeLeading .outside (l₁ ++ cs) = ⟨l₁ ++ l₂, b, rest⟩) :
    takeLeading .outside (l₁ ++ (blockComment body ++ cs)) =
      ⟨l₁ ++ (blockComment body ++ l₂), b, rest⟩ := by
  obtain ⟨s₁, hpasses, -⟩ := passes_takeLeading .outside l₁ nofun
  have htext := takeLeading_eq .outside l₁
  rw [hl₁, List.append_nil] at htext
  rw [htext] at hpasses
  have hfirst := takeLeading_append hpasses cs
  rw [h, Leading.mk.injEq] at hfirst
  obtain ⟨hl₂, hb, hrest⟩ := hfirst
  have hcomment := takeLeading_append (passes_blockComment hbody hline hpasses.ne_block) cs
  rw [takeLeading_append hpasses, hcomment, List.append_cancel_left hl₂, hb, hrest]
  rfl

/-! ### Tokens -/

theorem stops_outside (hc : isSeparator c = false) (hslash : c = '/' →
    cs.head? ≠ some '/' ∧ cs.head? ≠ some '*') : Stops .outside (c :: cs) := by
  have hne : c ≠ '\n' := by
    rintro rfl
    exact absurd hc (by decide)
  rw [Stops, takeLeading_outside hne hslash, if_neg (Bool.eq_false_iff.mp hc)]

/-- Nothing more is split off in front of the same character, unless it begins a comment. -/
theorem Stops.congr {cs' : List Char} (h : Stops s (c :: cs))
    (hslash : s = .outside → c = '/' → cs'.head? ≠ some '/' ∧ cs'.head? ≠ some '*') :
    Stops s (c :: cs') := by
  have htext : (takeLeading s (c :: cs)).text = [] := congrArg Leading.text h
  cases s with
  | outside =>
    refine stops_outside ?_ (hslash rfl)
    by_contra hc
    rw [Bool.not_eq_false] at hc
    by_cases hne : c = '\n'
    · subst hne
      exact nomatch htext
    · rw [takeLeading_separator hc hne] at htext
      exact nomatch htext
  | line =>
    by_cases hnul : c = '\x00'
    · subst hnul
      rfl
    · by_cases hne : c = '\n'
      · subst hne
        exact nomatch htext
      · rw [takeLeading_lineChar hne hnul] at htext
        exact nomatch htext
  | block =>
    unfold takeLeading at htext
    split at htext <;> simp_all

/-- A token that begins with a slash is an operator of one or two characters. -/
theorem tokenLength?_slash {kind : TokenKind} {n : Nat}
    (h : tokenLength? ('/' :: cs) = some (kind, n)) : n = 1 ∨ cs.head? = some '=' := by
  have hempty : numberLength? ([] ++ []) = none := rfl
  have hnumber : numberLength? ('/' :: cs) = none :=
    numberLength?_cut_none rfl (by decide) hempty cs
  have hmarks : ∀ s ∈ symbols, s.head? = some '/' → s.length = 1 ∨ s = ['/', '='] := by
    decide +kernel
  rw [tokenLength?_cons (by simp [delimiters]), if_neg (by decide), hnumber] at h
  obtain ⟨s, hs, heq⟩ := Option.map_eq_some_iff.mp h
  cases heq
  have hstart := List.find?_some hs
  rw [List.isPrefixOf_iff_prefix] at hstart
  have hne := (forall_mem_symbols s (List.mem_of_find?_eq_some hs)).1
  have hhead : s.head? = some '/' := by
    obtain ⟨d, ds, rfl⟩ := List.exists_cons_of_ne_nil hne
    exact congrArg some (List.cons_prefix_cons.mp hstart).1
  refine (hmarks s (List.mem_of_find?_eq_some hs) hhead).imp id ?_
  rintro rfl
  obtain ⟨rest, hrest⟩ := hstart
  rw [← (List.cons.inj hrest).2]
  rfl

/-- Whether tokens hold one that begins a comment together with the next. -/
def opensComment : List Token → Bool
  | t :: u :: ts =>
    (t.text == ['/'] && u.leading.isEmpty && u.text.head? == some '*') || opensComment (u :: ts)
  | _ => false

variable {fuel : Nat} {ts ts₁ ts₂ : List Token} {t u : Token}

theorem scan?_zero (h : scan? 0 cs = some ts) : cs = [] ∧ ts = [] := by
  rw [scan?] at h
  split at h
  · rename_i hcs
    exact ⟨List.isEmpty_iff.mp hcs, (Option.some.inj h).symm⟩
  · cases h

/-- The first token of a source and what stands in front of it are followed by the others. -/
theorem scan?_cons : scan? (fuel + 1) cs = some (t :: ts) ↔
    ∃ after, takeLeading .outside cs = ⟨t.leading, t.afterLineFeed, t.text ++ after⟩ ∧
      tokenLength? (t.text ++ after) = some (t.kind, t.text.length) ∧
        scan? fuel after = some ts := by
  rw [scan?]
  generalize takeLeading .outside cs = l
  obtain ⟨text, lineFeed, rest⟩ := l
  constructor
  · intro h
    dsimp only at h
    split at h
    · cases h
    · obtain ⟨⟨kind, n⟩, hlength, h⟩ := Option.bind_eq_some_iff.mp h
      obtain ⟨more, hmore, h⟩ := Option.bind_eq_some_iff.mp h
      cases h
      have hn : (rest.take n).length = n := by
        rw [List.length_take, Nat.min_eq_left (tokenLength?_le hlength).2]
      refine ⟨rest.drop n, ?_, ?_, hmore⟩
      · rw [List.take_append_drop]
      · rw [List.take_append_drop, hn]
        exact hlength
  · rintro ⟨after, hl, hlength, hmore⟩
    cases hl
    have hdrop : (t.text ++ after).drop t.text.length = after := List.drop_left
    have htake : (t.text ++ after).take t.text.length = t.text := List.take_left
    generalize t.text ++ after = rest at hlength hdrop htake
    cases rest with
    | nil => cases hlength
    | cons c rest =>
      refine Option.bind_eq_some_iff.mpr ⟨_, hlength, Option.bind_eq_some_iff.mpr ⟨ts, ?_, ?_⟩⟩
      · rw [hdrop]
        exact hmore
      · rw [htake]
        rfl

theorem scan?_nil : scan? (fuel + 1) cs = some [] ↔ (takeLeading .outside cs).rest = [] := by
  rw [scan?]
  generalize takeLeading .outside cs = l
  obtain ⟨text, lineFeed, rest⟩ := l
  cases rest with
  | nil => exact iff_of_true rfl rfl
  | cons c rest =>
    refine iff_of_false (fun h => ?_) (List.cons_ne_nil c rest)
    obtain ⟨⟨kind, n⟩, -, h⟩ := Option.bind_eq_some_iff.mp h
    obtain ⟨more, -, h⟩ := Option.bind_eq_some_iff.mp h
    cases h

/-- More fuel than needed changes nothing. -/
theorem scan?_add (h : scan? fuel cs = some ts) (k : Nat) : scan? (fuel + k) cs = some ts := by
  induction fuel generalizing cs ts with
  | zero =>
    obtain ⟨rfl, rfl⟩ := scan?_zero h
    cases k with
    | zero => rfl
    | succ k => exact scan?_nil.mpr rfl
  | succ fuel ih =>
    rw [Nat.succ_add]
    cases ts with
    | nil => exact scan?_nil.mpr (scan?_nil.mp h)
    | cons t ts =>
      obtain ⟨after, hl, hlength, hmore⟩ := scan?_cons.mp h
      exact scan?_cons.mpr ⟨after, hl, hlength, ih hmore⟩

theorem forall_mem_scan? (h : scan? fuel cs = some ts) : ∀ t ∈ ts, t.text ≠ [] := by
  induction fuel generalizing cs ts with
  | zero =>
    obtain ⟨rfl, rfl⟩ := scan?_zero h
    exact List.forall_mem_nil _
  | succ fuel ih =>
    cases ts with
    | nil => exact List.forall_mem_nil _
    | cons t ts =>
      obtain ⟨after, -, hlength, hmore⟩ := scan?_cons.mp h
      exact List.forall_mem_cons.mpr
        ⟨List.ne_nil_of_length_pos (tokenLength?_le hlength).1, ih hmore⟩

/-- A source that begins with an operator begins with no blanks. -/
theorem scan?_star (h : scan? fuel ('*' :: cs) = some (t :: ts)) :
    t.leading = [] ∧ t.text.head? = some '*' := by
  cases fuel with
  | zero => exact nomatch (scan?_zero h).1
  | succ fuel =>
    have hstops : Stops .outside ('*' :: cs) := stops_outside (by decide) nofun
    obtain ⟨after, hl, hlength, -⟩ := scan?_cons.mp h
    rw [hstops, Leading.mk.injEq] at hl
    obtain ⟨hleading, -, htext⟩ := hl
    refine ⟨hleading.symm, ?_⟩
    obtain ⟨c, text, hcons⟩ :=
      List.exists_cons_of_ne_nil (List.ne_nil_of_length_pos (tokenLength?_le hlength).1)
    rw [hcons] at htext ⊢
    exact congrArg some (List.cons.inj htext).1.symm

/-- Behind a slash that begins no comment, none begins with a comment put in. -/
theorem not_begins_of_scan? {cs' : List Char} (hl : t.leading = l₁ ++ l₂)
    (hopen : opensComment (u :: ts₁) = false) (hu : u.text = ['/'])
    (hstops : Stops .outside ('/' :: (spell ts₁ ++ (l₁ ++ cs))))
    (h : scan? fuel (spell ts₁ ++ (l₁ ++ cs)) = some (ts₁ ++ t :: ts₂)) :
    (spell ts₁ ++ (l₁ ++ ' ' :: cs')).head? ≠ some '/' ∧
      (spell ts₁ ++ (l₁ ++ ' ' :: cs')).head? ≠ some '*' := by
  rw [← List.append_assoc] at hstops h ⊢
  cases hfront : spell ts₁ ++ l₁ with
  | nil => exact ⟨by simp, by simp⟩
  | cons d front =>
    rw [hfront] at hstops h
    refine ⟨fun hd => ?_, fun hd => ?_⟩
    · cases Option.some.inj hd
      exact nomatch congrArg Leading.text hstops
    · cases Option.some.inj hd
      cases ts₁ with
      | nil =>
        have hnil := (scan?_star h).1
        rw [hl] at hnil
        obtain rfl := (List.append_eq_nil_iff.mp hnil).1
        exact nomatch hfront
      | cons v ts₁ =>
        obtain ⟨hleading, htext⟩ := scan?_star h
        simp [opensComment, hu, hleading, htext] at hopen

/-- What is split off in front of a token ends there also with a comment behind the token. -/
theorem stops_blockComment (hl : t.leading = l₁ ++ l₂) (hopen : opensComment (u :: ts₁) = false)
    (hstops : Stops s (u.text ++ (spell ts₁ ++ (l₁ ++ cs))))
    (hlength : tokenLength? (u.text ++ (spell ts₁ ++ (l₁ ++ cs))) = some (u.kind, u.text.length))
    (h : scan? fuel (spell ts₁ ++ (l₁ ++ cs)) = some (ts₁ ++ t :: ts₂)) :
    Stops s (u.text ++ (spell ts₁ ++ (l₁ ++ (blockComment body ++ cs)))) := by
  obtain ⟨c, text, hu⟩ :=
    List.exists_cons_of_ne_nil (List.ne_nil_of_length_pos (tokenLength?_le hlength).1)
  rw [hu] at hstops hlength ⊢
  refine hstops.congr ?_
  rintro rfl rfl
  cases text with
  | nil => exact not_begins_of_scan? hl hopen hu hstops h
  | cons d text =>
    rcases tokenLength?_slash hlength with hone | hd
    · exact nomatch Nat.succ.inj hone
    · cases Option.some.inj hd
      simp

/-- The tokens of a source with a comment in it. -/
theorem scan?_blockComment (hbody : IsBody body) (hline : '\n' ∉ body)
    (hl₁ : (takeLeading .outside l₁).rest = []) (hl₂ : t.leading = l₁ ++ l₂)
    (hopen : opensComment ts₁ = false)
    (h : scan? fuel (spell ts₁ ++ (l₁ ++ cs)) = some (ts₁ ++ t :: ts₂)) :
    scan? fuel (spell ts₁ ++ (l₁ ++ (blockComment body ++ cs))) =
      some (ts₁ ++ { t with leading := l₁ ++ (blockComment body ++ l₂) } :: ts₂) := by
  induction ts₁ generalizing fuel with
  | nil =>
    cases fuel with
    | zero => exact nomatch (scan?_zero h).2
    | succ fuel =>
      obtain ⟨after, hleading, hlength, hmore⟩ := scan?_cons.mp h
      rw [hl₂] at hleading
      exact scan?_cons.mpr
        ⟨after, takeLeading_blockComment hbody hline hl₁ hleading, hlength, hmore⟩
  | cons u ts₁ ih =>
    cases fuel with
    | zero => exact nomatch (scan?_zero h).2
    | succ fuel =>
      obtain ⟨after, hleading, hlength, hmore⟩ := scan?_cons.mp h
      have hsplit := takeLeading_eq .outside (spell (u :: ts₁) ++ (l₁ ++ cs))
      obtain ⟨s', hpasses, hstops⟩ := passes_takeLeading .outside
        (spell (u :: ts₁) ++ (l₁ ++ cs)) nofun
      rw [hleading] at hsplit hpasses hstops
      rw [spell_cons, spell_token, List.append_assoc, List.append_assoc,
        List.append_cancel_left_eq, List.append_cancel_left_eq] at hsplit
      subst hsplit
      have hopen' : opensComment ts₁ = false := by
        cases ts₁ with
        | nil => rfl
        | cons v ts₁ => exact (Bool.or_eq_false_iff.mp hopen).2
      refine scan?_cons.mpr
        ⟨spell ts₁ ++ (l₁ ++ (blockComment body ++ cs)), ?_, ?_, ih hopen' hmore⟩
      · have hstops' : Stops s' (u.text ++ (spell ts₁ ++ (l₁ ++ (blockComment body ++ cs)))) :=
          stops_blockComment hl₂ hopen hstops hlength hmore
        rw [spell_cons, spell_token, List.append_assoc, List.append_assoc,
          takeLeading_append hpasses, hstops', List.append_nil, Bool.or_false]
      · have hjoined : tokenLength? (u.text ++ (spell ts₁ ++ l₁) ++ cs) =
            some (u.kind, u.text.length) := by simpa only [List.append_assoc] using hlength
        have hcut := tokenLength?_cut hjoined (by simp)
          ('/' :: '*' :: (body ++ ['*', '/', ' ']) ++ cs)
        rw [List.append_assoc, List.append_assoc] at hcut
        exact hcut

/-! ### Sources -/

/-- The byte order mark at the beginning of a source, if there is one. -/
def byteOrderMark : List Char → List Char
  | '\uFEFF' :: _ => ['\uFEFF']
  | _ => []

theorem byteOrderMark_cons (c : Char) (cs cs' : List Char) :
    byteOrderMark (c :: cs) = byteOrderMark (c :: cs') := by
  by_cases hc : c = '\uFEFF'
  · subst hc
    rfl
  · rw [byteOrderMark, byteOrderMark]
    · exact fun tail heq => hc (List.cons.inj heq).1
    · exact fun tail heq => hc (List.cons.inj heq).1

theorem withoutMark_append (mark cs : List Char) (h : mark = byteOrderMark (mark ++ cs)) :
    withoutMark (mark ++ cs) = cs := by
  unfold byteOrderMark at h
  split at h
  · rw [h]
    rfl
  · rename_i hmark
    subst h
    rw [List.nil_append] at hmark ⊢
    rw [withoutMark]
    exact hmark

theorem tokens?_eq (mark cs : List Char) (h : mark = byteOrderMark (mark ++ cs)) :
    tokens? (mark ++ cs) = scan? (cs.length + 1) cs := by
  rw [tokens?, withoutMark_append mark cs h]

theorem forall_mem_tokens? (h : tokens? cs = some ts) : ∀ t ∈ ts, t.text ≠ [] :=
  forall_mem_scan? h

/-- A place between two tokens of a source, outside of comments. -/
structure Boundary (before after : List Char) (ts₁ : List Token) (t : Token) (ts₂ : List Token)
    (l₁ l₂ : List Char) : Prop where
  tokens : tokens? (before ++ after) = some (ts₁ ++ t :: ts₂)
  leading : t.leading = l₁ ++ l₂
  before_eq : before = byteOrderMark (before ++ after) ++ (spell ts₁ ++ l₁)
  outside : (takeLeading .outside l₁).rest = []

/-- A comment between two tokens becomes a part of what precedes the second, unless it ends another
one that is left open among the tokens in front. -/
theorem Boundary.tokens?_blockComment (h : Boundary cs after ts₁ t ts₂ l₁ l₂)
    (hclosed : opensComment ts₁ = false) (hbody : IsBody body) (hline : '\n' ∉ body) :
    tokens? (cs ++ (blockComment body ++ after)) =
      some (ts₁ ++ { t with leading := l₁ ++ (blockComment body ++ l₂) } :: ts₂) := by
  obtain ⟨htokens, hleading, hbefore, houtside⟩ := h
  generalize hmark : byteOrderMark (cs ++ after) = mark at hbefore
  subst hbefore
  rw [List.append_assoc, List.append_assoc] at hmark htokens ⊢
  rw [tokens?_eq _ _ hmark.symm] at htokens
  have hkept :
      mark = byteOrderMark (mark ++ (spell ts₁ ++ (l₁ ++ (blockComment body ++ after)))) := by
    rw [← List.append_assoc, ← List.append_assoc] at hmark ⊢
    cases hfront : mark ++ spell ts₁ ++ l₁ with
    | nil =>
      obtain ⟨hnil, -⟩ := List.append_eq_nil_iff.mp hfront
      rw [(List.append_eq_nil_iff.mp hnil).1]
      rfl
    | cons c front =>
      rw [hfront] at hmark
      exact hmark.symm.trans (byteOrderMark_cons c _ _)
  rw [tokens?_eq _ _ hkept]
  have hscan := scan?_add (scan?_blockComment hbody hline houtside hleading hclosed htokens)
    (blockComment body).length
  simp only [List.length_append] at hscan ⊢
  convert hscan using 2
  omega

end ProviderCatalog.Go
