import HeadFinder.Proofs.Markup.Tags
import Mathlib.Data.List.Nodup

/-! # Reading documents that have been written

The reader goes through what has been written piece by piece: a start tag opens an
element, runs of text and references make up its text, each child is put into it, and the
end tag closes it again.  `Leads` says that the reader gets from one state to another, with
no more steps than it passes characters, so that its fuel suffices.
-/
namespace HeadFinder.Markup

/-- A reader of one text without entities: what is left of the text and the open
elements. -/
def Reader.on (rest : List Char) (frames : List Frame) : Reader :=
  ⟨[⟨[], rest, 0, []⟩], frames, 0⟩

section Steps
variable {declarations : Declarations} {allowance : Nat} {start rest : List Char}
  {frames : List Frame}

theorem Reader.step_on (hne : start ≠ []) {progress : Progress}
    (h : (Reader.on start frames).read declarations allowance start = .ok progress) :
    (Reader.on start frames).step declarations allowance = .ok progress := by
  cases start with
  | nil => exact absurd rfl hne
  | cons c start =>
    show Except.mapError _ ((Reader.on (c :: start) frames).read declarations allowance _) = _
    rw [h]
    rfl

/-- The reader gets from one state to another, by no more steps than characters. -/
def Leads (declarations : Declarations) (allowance : Nat) (start : List Char)
    (frames : List Frame) (rest : List Char) (later : List Frame) : Prop :=
  ∃ steps, steps + rest.length ≤ start.length ∧ ∀ fuel,
    (Reader.on start frames).run declarations allowance (steps + fuel) =
      (Reader.on rest later).run declarations allowance fuel

namespace Leads
variable {middle : List Char} {later last : List Frame}

theorem refl (start : List Char) (frames : List Frame) :
    Leads declarations allowance start frames start frames :=
  ⟨0, by omega, fun fuel => by rw [Nat.zero_add]⟩

theorem trans (h : Leads declarations allowance start frames middle later)
    (h' : Leads declarations allowance middle later rest last) :
    Leads declarations allowance start frames rest last := by
  obtain ⟨steps, hlength, hrun⟩ := h
  obtain ⟨more, hlength', hrun'⟩ := h'
  exact ⟨steps + more, by omega, fun fuel => by rw [Nat.add_assoc, hrun, hrun']⟩

/-- A piece that is read by one step. -/
theorem piece (hshort : rest.length < start.length)
    (h : (Reader.on start frames).read declarations allowance start =
      .ok (.more (Reader.on rest later))) :
    Leads declarations allowance start frames rest later := by
  have hne : start ≠ [] := by
    rintro rfl
    cases hshort
  refine ⟨1, by omega, fun fuel => ?_⟩
  rw [Nat.add_comm, Reader.run, Reader.step_on hne h]

end Leads

/-! ## Tags -/

section Tags
variable {standalone : Bool} {layout : Layout} {name : QualifiedName}
  {attributes : List (QualifiedName × String)}

/-- A word is its letters. -/
theorem IsWord.eq_of_base_eq {other : QualifiedName} (h : IsWord name) (h' : IsWord other)
    (hbase : name.base = other.base) : name = other := by
  obtain ⟨space, base⟩ := name
  obtain ⟨space', base'⟩ := other
  cases h.space
  cases h'.space
  cases hbase
  rfl

/-- The namespaces in force are those outside of everything. -/
def Plainly (frames : List Frame) : Prop :=
  (frames.head?.map Frame.spaces).getD baseSpaces = baseSpaces

/-- An element that has just been opened. -/
def Frame.opened (name : QualifiedName) (attributes : List (QualifiedName × String)) : Frame :=
  ⟨⟨none, name.base⟩, name, attributes, [], [], baseSpaces⟩

theorem openTag_openingTag (hname : IsWord name)
    (h : ∀ given ∈ attributes, IsWord given.1 ∧ ∀ c ∈ given.2.toList, isChar c = true)
    (hdistinct : (attributes.map Prod.fst).Nodup) (hframes : Plainly frames) :
    (Reader.on (openingTag layout name attributes ++ rest) frames).openTag (.empty standalone)
        allowance (openingTag layout name attributes ++ rest) =
      .ok (.more (Reader.on rest (Frame.opened name attributes :: frames))) := by
  obtain ⟨raws, htag, hraws⟩ := takeTag_openingTag layout hname h rest
  have hnodup : (([] ++ givenAttributes attributes).map Prod.fst).Nodup := by
    have hnames : ([] ++ givenAttributes attributes).map Prod.fst =
        (attributes.map Prod.fst).map fun name => ⟨none, name.base⟩ := by
      rw [List.nil_append, givenAttributes, List.map_map, List.map_map]
      rfl
    rw [hnames]
    refine hdistinct.map_on ?_
    rintro one hone other hother heq
    obtain ⟨given, hgiven, rfl⟩ := List.mem_map.mp hone
    obtain ⟨given', hgiven', rfl⟩ := List.mem_map.mp hother
    exact (h given hgiven).1.eq_of_base_eq (h given' hgiven').1 (congrArg RawName.base heq)
  have htoken : Scan.asToken (openingTag layout name attributes ++ rest)
      (takeTag ((openingTag layout name attributes ++ rest).drop 1)) =
        .ok (⟨none, name.base⟩, raws, false, rest) := by
    rw [htag]
    rfl
  have hgiven : attributeValues (.empty standalone) allowance
      (openingTag layout name attributes ++ rest) ⟨none, name.base⟩ [] 0 raws =
        .ok (givenAttributes attributes, 0) :=
    attributeValues_row hraws (fun given hgiven => (h given hgiven).2) [] hnodup
  have hspaces : ((Reader.on (openingTag layout name attributes ++ rest) frames).frames.head?.map
      Frame.spaces).getD baseSpaces = baseSpaces := hframes
  have hnames : Except.mapError (fun cause => ⟨cause, openingTag layout name attributes ++ rest⟩)
      ((Reader.on (openingTag layout name attributes ++ rest) frames).resolveTag
        ⟨none, name.base⟩ (givenAttributes attributes ++ [])) =
          (.ok (name, attributes, baseSpaces) : Except Fault _) := by
    rw [List.append_nil]
    exact congrArg (Except.mapError _)
      (resolveTag_row hname (fun given hgiven => (h given hgiven).1) hdistinct hspaces)
  -- Nothing is declared, so no defaults are added.
  exact (bind_of_ok htoken).trans ((bind_of_ok hgiven).trans (bind_of_ok hnames))

/-- A start tag opens an element. -/
theorem leads_openingTag (hname : IsWord name)
    (h : ∀ given ∈ attributes, IsWord given.1 ∧ ∀ c ∈ given.2.toList, isChar c = true)
    (hdistinct : (attributes.map Prod.fst).Nodup) (hframes : Plainly frames) :
    Leads (.empty standalone) allowance (openingTag layout name attributes ++ rest) frames rest
      (Frame.opened name attributes :: frames) := by
  obtain ⟨c, more, hbase, hc⟩ := hname.exists_cons
  refine .piece (by simp [openingTag]; omega) ?_
  rw [← openTag_openingTag hname h hdistinct hframes]
  rw [show openingTag layout name attributes ++ rest = '<' :: c :: (more ++
    (attributes.flatMap (attributeText layout) ++ ['>']) ++ rest) by simp [openingTag, hbase]]
  rw [Reader.read]
  -- It begins with no other markup.
  all_goals exact fun _ heq => cons_ne_of_isNameStart hc (by decide) _ _ heq

/-- An end tag of the name that is open closes the element. -/
theorem read_closingTag (hname : IsWord name) {frame : Frame}
    (hframe : frame.written = ⟨none, name.base⟩) :
    (Reader.on (closingTag name ++ rest) (frame :: frames)).read declarations allowance
        (closingTag name ++ rest) =
      (Reader.on (closingTag name ++ rest) (frame :: frames)).close (closingTag name ++ rest)
        rest := by
  have hmore : (closingTag name ++ rest).drop 2 = name.base ++ '>' :: rest := by
    simp [closingTag]
  have htag : ∀ c ∈ name.base, isTagChar c = true := fun c hc => by
    rw [isTagChar, hname.inside c hc, Bool.true_or]
  have hrow : (name.base ++ '>' :: rest).takeWhile isTagChar = name.base ∧
      (name.base ++ '>' :: rest).dropWhile isTagChar = '>' :: rest := by
    rw [List.takeWhile_append_of_pos htag, List.dropWhile_append_of_pos htag,
      List.takeWhile_cons_of_neg (by decide), List.dropWhile_cons_of_neg (by decide),
      List.append_nil]
    exact ⟨rfl, rfl⟩
  have hend : Reader.endTag (name.base ++ '>' :: rest) = .ok rest := by
    unfold Reader.endTag
    rw [takeName_append hname.start hname.inside (by rintro c ⟨⟩; decide), hrow.2]
    exact expect_skipSpace (show isSpace '>' = false by decide)
  have hstart : (Reader.on (closingTag name ++ rest) (frame :: frames)).read declarations allowance
      (closingTag name ++ rest) =
        (Reader.on (closingTag name ++ rest) (frame :: frames)).closeTag
          (closingTag name ++ rest) := rfl
  have hmatch : (Reader.on (closingTag name ++ rest) (frame :: frames)).frames.head?.any
      (·.written.text = (name.base ++ '>' :: rest).takeWhile isTagChar) = true := by
    rw [hrow.1]
    show decide (frame.written.text = name.base) = true
    rw [hframe]
    exact decide_eq_true rfl
  have hopen : ¬ (Reader.on (closingTag name ++ rest) (frame :: frames)).frames.length ≤
      ((Reader.on (closingTag name ++ rest) (frame :: frames)).readings.head?.map
        Reading.depth).getD 0 := Nat.not_succ_le_zero frames.length
  have htoken : Scan.asToken (closingTag name ++ rest) (.ok rest) = .ok rest := rfl
  rw [hstart, Reader.closeTag, hmore, hend]
  dsimp only
  rw [bind_of_ok htoken, if_neg hopen, if_pos hmatch]

theorem leads_closingTag (hname : IsWord name) {frame parent : Frame}
    (hframe : frame.written = ⟨none, name.base⟩) :
    Leads declarations allowance (closingTag name ++ rest) (frame :: parent :: frames) rest
      ({ parent with children := frame.close :: parent.children } :: frames) :=
  .piece (by simp [closingTag]; omega) (read_closingTag hname hframe)

end Tags

/-! ## Texts -/

section Texts
variable {frame : Frame}

theorem isVerbatim_iff {c : Char} : isVerbatim c = true ↔
    isChar c = true ∧ c ≠ '<' ∧ c ≠ '&' ∧ c ≠ '>' ∧ c ≠ '\r' := by
  simp only [isVerbatim, Bool.and_eq_true, decide_eq_true_eq, and_assoc]

/-- What ends a run of text. -/
def Breaks (rest : List Char) : Prop :=
  ∃ mark more, rest = mark :: more ∧ (mark = '<' ∨ mark = '&')

theorem takeRun_append {run : List Char} (h : ∀ c ∈ run, isVerbatim c = true)
    (hrest : Breaks rest) (held : List Char) :
    Reader.takeRun held (run ++ rest) = .ok (held.reverse ++ run, rest) := by
  induction run generalizing held with
  | nil =>
    obtain ⟨mark, more, rfl, hmark⟩ := hrest
    rw [List.nil_append, Reader.takeRun, List.append_nil]
    · exact if_pos (by simpa using hmark)
    · rintro - rfl
      rcases hmark with h | h <;> cases h
  | cons c run ih =>
    obtain ⟨hc, hrun⟩ := List.forall_mem_cons.mp h
    obtain ⟨hchar, hopen, hreference, -, -⟩ := isVerbatim_iff.mp hc
    have hmore := ih hrun (c :: held)
    rw [List.reverse_cons, List.append_assoc, List.singleton_append] at hmore
    rw [List.cons_append, Reader.takeRun, if_neg (by simp [hopen, hreference]), if_pos hchar,
      hmore]
    -- A run holds no `>`, so the end of a section does not stand in it.
    rintro after - heq
    obtain ⟨mark, more, rfl, hmark⟩ := hrest
    match run with
    | [] =>
      rw [List.nil_append, List.cons.injEq] at heq
      rcases hmark with rfl | rfl <;> cases heq.1
    | [_] =>
      rw [List.singleton_append, List.cons.injEq, List.cons.injEq] at heq
      rcases hmark with rfl | rfl <;> cases heq.2.1
    | _ :: e :: _ =>
      rw [List.cons_append, List.cons_append, List.cons.injEq, List.cons.injEq] at heq
      exact (isVerbatim_iff.mp (hrun e (by simp))).2.2.2.1 heq.2.1

theorem normalizeLines_eq_self {run : List Char} (h : ∀ c ∈ run, isVerbatim c = true) :
    normalizeLines run = run := by
  induction run with
  | nil => rfl
  | cons c run ih =>
    obtain ⟨hc, hrun⟩ := List.forall_mem_cons.mp h
    have hreturn := (isVerbatim_iff.mp hc).2.2.2.2
    rw [normalizeLines, ih hrun]
    · exact fun _ heq => absurd heq hreturn
    · exact fun heq => absurd heq hreturn

/-- A run of characters that stand for themselves is read at once. -/
theorem leads_run {run : List Char} (hne : run ≠ []) (h : ∀ c ∈ run, isVerbatim c = true)
    (hrest : Breaks rest) :
    Leads declarations allowance (run ++ rest) (frame :: frames) rest
      (frame.addText run :: frames) := by
  refine .piece (by
    rw [List.length_append]
    have := List.length_pos_iff.mpr hne
    omega) ?_
  have hrun := takeRun_append h hrest []
  cases run with
  | nil => exact absurd rfl hne
  | cons c run =>
    obtain ⟨-, hopen, hreference, -, -⟩ := isVerbatim_iff.mp (h c (List.mem_cons_self ..))
    rw [List.cons_append] at hrun ⊢
    have htoken : Scan.asToken (c :: (run ++ rest)) (Reader.takeRun [] (c :: (run ++ rest))) =
        .ok (c :: run, rest) := by
      rw [hrun]
      rfl
    rw [Reader.read, bind_of_ok htoken]
    · dsimp only
      rw [normalizeLines_eq_self h]
      rfl
    -- It begins with no markup and no reference.
    iterate 5 exact fun _ heq => hopen (List.cons.inj heq).1
    exact fun _ heq => hreference (List.cons.inj heq).1

theorem mem_referable_of_not_verbatim {c : Char} (hchar : isChar c = true)
    (h : isVerbatim c = false) : c ∈ referable := by
  by_contra hno
  simp only [referable, List.mem_cons, List.not_mem_nil, or_false, not_or] at hno
  obtain ⟨hopen, hreference, hclose, -, -, -, -, hreturn⟩ := hno
  exact Bool.false_ne_true
    (h.symm.trans (isVerbatim_iff.mpr ⟨hchar, hopen, hreference, hclose, hreturn⟩))

theorem leads_reference {c : Char} (hchar : isChar c = true) (h : isVerbatim c = false) :
    Leads declarations allowance ('&' :: ((referenceTo c).toList ++ ';' :: rest)) (frame :: frames)
      rest (frame.addText [c] :: frames) := by
  obtain ⟨reference, htake, hvalue⟩ :=
    takeReference_referenceTo (mem_referable_of_not_verbatim hchar h) rest
  refine .piece (by simp; omega) ?_
  show (Reader.on _ _).refer declarations allowance
    ('&' :: ((referenceTo c).toList ++ ';' :: rest)) = _
  unfold Reader.refer
  rw [List.drop_one, List.tail_cons, htake, bind_of_ok (show Scan.asToken _ _ = _ from rfl)]
  dsimp only
  rw [hvalue]
  rfl

theorem escape_of_verbatim {run : List Char} (h : ∀ c ∈ run, isVerbatim c = true)
    (more : List Char) : escape isVerbatim (run ++ more) = run ++ escape isVerbatim more := by
  induction run with
  | nil => rfl
  | cons c run ih =>
    obtain ⟨hc, hrun⟩ := List.forall_mem_cons.mp h
    rw [List.cons_append, escape_cons_of_plain hc, ih hrun, List.cons_append]

theorem breaks_escape {cs : List Char} (h : ∀ c, cs.head? = some c → isVerbatim c = false)
    (hrest : Breaks rest) : Breaks (escape isVerbatim cs ++ rest) := by
  cases cs with
  | nil => exact hrest
  | cons c cs =>
    rw [escape_cons_of_reference (h c rfl)]
    exact ⟨'&', _, rfl, Or.inr rfl⟩

/-- The first piece of a text is a reference, or a run that cannot be made longer. -/
theorem exists_piece {cs : List Char} (hne : cs ≠ []) (h : ∀ c ∈ cs, isChar c = true)
    (hrest : Breaks rest) : ∃ piece more, cs = piece ++ more ∧ piece ≠ [] ∧
      Leads declarations allowance (escape isVerbatim cs ++ rest) (frame :: frames)
        (escape isVerbatim more ++ rest) (frame.addText piece :: frames) := by
  obtain ⟨c, cs, rfl⟩ := List.exists_cons_of_ne_nil hne
  by_cases hc : isVerbatim c = true
  · refine ⟨(c :: cs).takeWhile isVerbatim, (c :: cs).dropWhile isVerbatim,
      List.takeWhile_append_dropWhile.symm, by simp [hc], ?_⟩
    have hrun : ∀ d ∈ (c :: cs).takeWhile isVerbatim, isVerbatim d = true :=
      fun d => List.mem_takeWhile_imp
    have hmore := escape_of_verbatim hrun ((c :: cs).dropWhile isVerbatim)
    rw [List.takeWhile_append_dropWhile] at hmore
    rw [hmore, List.append_assoc]
    refine leads_run (by simp [hc]) hrun (breaks_escape (fun d hd => ?_) hrest)
    have hstop := List.head?_dropWhile_not isVerbatim (c :: cs)
    rwa [hd] at hstop
  · rw [Bool.not_eq_true] at hc
    refine ⟨[c], cs, rfl, List.cons_ne_nil _ _, ?_⟩
    rw [escape_cons_of_reference hc, List.cons_append, List.append_assoc]
    exact leads_reference (h c (List.mem_cons_self ..)) hc

/-- **A text is read as it was before it was escaped.** -/
theorem leads_text {cs : List Char} (h : ∀ c ∈ cs, isChar c = true) (hrest : Breaks rest)
    (hfirst : frame.children = []) :
    ∃ runs, Leads declarations allowance (escape isVerbatim cs ++ rest) (frame :: frames) rest
        ({ frame with runs } :: frames) ∧
      runs.reverse.flatten = frame.runs.reverse.flatten ++ cs := by
  -- Every piece leaves a shorter text.
  induction hlength : cs.length using Nat.strong_induction_on generalizing cs frame with
  | h length ih =>
    by_cases hne : cs = []
    · subst hne
      exact ⟨frame.runs, .refl _ _, (List.append_nil _).symm⟩
    · obtain ⟨piece, more, rfl, hpiece, hleads⟩ := exists_piece hne h hrest
      have hadd : frame.addText piece = { frame with runs := piece :: frame.runs } :=
        if_pos (by rw [hfirst]; rfl)
      have hfirst' : (frame.addText piece).children = [] := by
        rw [hadd]
        exact hfirst
      have hshort : more.length < length := by
        rw [← hlength, List.length_append]
        have := List.length_pos_iff.mpr hpiece
        omega
      obtain ⟨runs, hmore, hruns⟩ := ih more.length hshort
        (fun c hc => h c (List.mem_append_right _ hc)) hfirst' rfl
      rw [hadd] at hleads hmore hruns
      refine ⟨runs, hleads.trans hmore, ?_⟩
      rw [hruns, List.reverse_cons, List.flatten_append, List.flatten_singleton, List.append_assoc]

end Texts

/-! ## Elements -/

section Elements
variable {standalone : Bool} {layout : Layout}

/-- White space behind a child is not kept. -/
theorem leads_tail {frame : Frame} (h : frame.children ≠ []) (hrest : Breaks rest) :
    Leads declarations allowance (layout.tail ++ rest) (frame :: frames) rest
      (frame :: frames) := by
  by_cases htail : layout.tail = []
  · rw [htail]
    exact .refl _ _
  · have hspace : ∀ c, isSpace c = true ∧ c ≠ '\r' → isVerbatim c = true := by
      intro c hc
      simp only [isSpace, Bool.or_eq_true, decide_eq_true_eq] at hc
      rcases hc with ⟨((rfl | rfl) | rfl) | rfl, hne⟩
      · decide
      · decide
      · decide
      · exact absurd rfl hne
    have hsame : frame.addText layout.tail = frame := if_neg (by simpa using h)
    have hrun : Leads declarations allowance (layout.tail ++ rest) (frame :: frames) rest
        (frame.addText layout.tail :: frames) :=
      leads_run htail (fun c hc => hspace c (layout.tail_space c hc)) hrest
    rwa [hsame] at hrun

/-- Inside of an element that has been opened, its text and its children are read. -/
theorem leads_inside {name : QualifiedName} {attributes : List (QualifiedName × String)}
    {text : String} {children : List Element} (htext : ∀ c ∈ text.toList, isChar c = true)
    (hbreaks : Breaks (writeAll layout children ++ rest))
    (hchildren : ∀ frame : Frame, frame.spaces = baseSpaces →
      Leads declarations allowance (writeAll layout children ++ rest) (frame :: frames) rest
        ({ frame with children := children.reverse ++ frame.children } :: frames)) :
    ∃ frame, frame.written = ⟨none, name.base⟩ ∧ frame.close = .node name attributes text children ∧
      Leads declarations allowance
        (escape isVerbatim text.toList ++ (writeAll layout children ++ rest))
        (Frame.opened name attributes :: frames) rest (frame :: frames) := by
  have hfirst : (Frame.opened name attributes).children = [] := rfl
  obtain ⟨runs, hleads, hruns⟩ := leads_text htext hbreaks hfirst
  refine ⟨{ Frame.opened name attributes with runs, children := children.reverse ++ [] }, rfl, ?_,
    hleads.trans (hchildren { Frame.opened name attributes with runs } rfl)⟩
  have hruns : runs.reverse.flatten = text.toList := hruns
  rw [Frame.close, hruns, String.ofList_toList, List.append_nil, List.reverse_reverse]
  rfl

theorem breaks_writeAll (elements : List Element) (hrest : Breaks rest) :
    Breaks (writeAll layout elements ++ rest) := by
  cases elements with
  | nil => exact hrest
  | cons element elements =>
    obtain ⟨name, attributes, text, children⟩ := element
    exact ⟨'<', _, rfl, Or.inl rfl⟩

theorem breaks_closingTag (name : QualifiedName) (rest : List Char) :
    Breaks (closingTag name ++ rest) :=
  ⟨'<', _, rfl, Or.inl rfl⟩

mutual

/-- **An element is read as it was written** and becomes a child of the element around it. -/
theorem leads_write : (element : Element) → element.Writable → (parent : Frame) →
    parent.spaces = baseSpaces → (frames : List Frame) → (rest : List Char) →
    Leads (.empty standalone) allowance (write layout element ++ rest) (parent :: frames) rest
      ({ parent with children := element :: parent.children } :: frames)
  | .node name attributes text children, h, parent, hspaces, frames, rest => by
    obtain ⟨hname, hattributes, hdistinct, htext, hchildren⟩ := h
    have hbreaks := breaks_closingTag name rest
    obtain ⟨frame, hwritten, hclose, hinside⟩ := leads_inside htext
      (breaks_writeAll children hbreaks)
      (fun frame hspaces =>
        leads_writeAll children hchildren frame hspaces (parent :: frames) hbreaks)
    have hplainly : Plainly (parent :: frames) := hspaces
    rw [write, ← hclose]
    simp only [List.append_assoc]
    exact (leads_openingTag hname hattributes hdistinct hplainly).trans
      (hinside.trans (leads_closingTag hname hwritten))

/-- Elements are read one after the other. -/
theorem leads_writeAll : (elements : List Element) → Element.AllWritable elements →
    (frame : Frame) → frame.spaces = baseSpaces → (frames : List Frame) → {rest : List Char} →
    Breaks rest →
    Leads (.empty standalone) allowance (writeAll layout elements ++ rest) (frame :: frames) rest
      ({ frame with children := elements.reverse ++ frame.children } :: frames)
  | [], _, _, _, _, _, _ => .refl _ _
  | element :: elements, h, frame, hspaces, frames, rest, hrest => by
    have hfirst := leads_write element h.1 frame hspaces frames
      (layout.tail ++ (writeAll layout elements ++ rest))
    have hmore := leads_writeAll elements h.2 { frame with children := element :: frame.children }
      hspaces frames hrest
    rw [writeAll, List.reverse_cons]
    simp only [List.append_assoc, List.singleton_append]
    exact hfirst.trans ((leads_tail (List.cons_ne_nil _ _) (breaks_writeAll elements hrest)).trans
      hmore)

end

end Elements
end Steps

/-! ## Documents -/

section Documents
variable {layout : Layout} {root : Element}

theorem readRoot_write (standalone : Bool) (allowance : Nat) (h : root.Writable)
    (rest : List Char) :
    readRoot (.empty standalone) allowance (write layout root ++ rest) = .ok (root, rest) := by
  obtain ⟨name, attributes, text, children⟩ := root
  obtain ⟨hname, hattributes, hdistinct, htext, hchildren⟩ := h
  have hbreaks := breaks_closingTag name rest
  have hplainly : Plainly [] := rfl
  have hopen : (Reader.on (write layout (.node name attributes text children) ++ rest) []).openTag
      (.empty standalone) allowance (write layout (.node name attributes text children) ++ rest) =
        .ok (.more (Reader.on (escape isVerbatim text.toList ++
          (writeAll layout children ++ (closingTag name ++ rest)))
            [Frame.opened name attributes])) := by
    rw [write]
    simp only [List.append_assoc]
    exact openTag_openingTag hname hattributes hdistinct hplainly
  obtain ⟨frame, hwritten, hclose, hinside⟩ : ∃ frame, frame.written = ⟨none, name.base⟩ ∧
      frame.close = .node name attributes text children ∧
        Leads (.empty standalone) allowance
          (escape isVerbatim text.toList ++ (writeAll layout children ++ (closingTag name ++ rest)))
          [Frame.opened name attributes] (closingTag name ++ rest) [frame] :=
    leads_inside htext (breaks_writeAll children hbreaks)
      (fun frame hspaces => leads_writeAll children hchildren frame hspaces [] hbreaks)
  obtain ⟨steps, hlength, hrun⟩ := hinside
  have hlast : (Reader.on (closingTag name ++ rest) [frame]).step (.empty standalone) allowance =
      .ok (.root (.node name attributes text children) rest) := by
    rw [← hclose]
    exact Reader.step_on (List.cons_ne_nil _ _) (read_closingTag hname hwritten)
  -- There are more than enough steps for all the characters.
  obtain ⟨fuel, hfuel⟩ : ∃ fuel, 2 * ((write layout (.node name attributes text children) ++
      rest).length + allowance) + 1 = steps + (fuel + 1) := by
    refine ⟨2 * ((write layout (.node name attributes text children) ++ rest).length + allowance) -
      steps, ?_⟩
    have hlong : steps ≤ (write layout (.node name attributes text children) ++ rest).length := by
      rw [write]
      simp only [List.length_append] at hlength ⊢
      omega
    omega
  refine (bind_of_ok hopen).trans ?_
  show Reader.run (.empty standalone) allowance _ _ = _
  rw [hfuel, hrun, Reader.run, hlast]

theorem takeXmlDeclaration_writeDocument (body : List Char) :
    takeXmlDeclaration (header ++ body) =
      .ok (false, '\n' :: body) := by
  have hparts : readDeclaration " version=\"1.0\" encoding=\"UTF-8\"".toList = .ok false := rfl
  have hafter : after? "<?xml" (header ++ body) =
      some (" version=\"1.0\" encoding=\"UTF-8\"".toList ++ '?' :: '>' :: '\n' :: body) := rfl
  generalize hpart : " version=\"1.0\" encoding=\"UTF-8\"".toList = part at hparts hafter
  have hhead : (((part ++ '?' :: '>' :: '\n' :: body).head?.map
      fun c => isSpace c || decide (c = '?')).getD false) = true := by
    rw [← hpart]
    rfl
  have hinstruction : Scan.asToken (header ++ body)
      (takeInstruction ((header ++ body).drop 2)) =
        .ok (true, '\n' :: body) := rfl
  have hlength : (part ++ '?' :: '>' :: '\n' :: body).length - ('\n' :: body).length - 2 =
      part.length := by
    simp only [List.length_append, List.length_cons]
    omega
  unfold takeXmlDeclaration
  rw [hafter]
  dsimp only
  rw [if_pos hhead, bind_of_ok hinstruction]
  dsimp only
  rw [hlength, List.take_left, hparts]
  rfl

theorem exists_cons_write (layout : Layout) (h : root.Writable) (rest : List Char) :
    ∃ c more, write layout root ++ rest = '<' :: c :: more ∧ isNameStart c = true := by
  obtain ⟨name, attributes, text, children⟩ := root
  obtain ⟨c, more, hbase, hc⟩ := h.1.exists_cons
  rw [write, openingTag, hbase]
  exact ⟨c, _, rfl, hc⟩

theorem takeProlog_write (h : root.Writable) (allowance fuel : Nat) (declarations : Declarations)
    (rest : List Char) :
    takeProlog allowance (fuel + 1) false declarations ('\n' :: (write layout root ++ rest)) =
      .ok (declarations, write layout root ++ rest) := by
  obtain ⟨c, more, hwrite, hc⟩ := exists_cons_write layout h rest
  have hspace : skipSpace ('\n' :: '<' :: c :: more) = '<' :: c :: more := rfl
  rw [hwrite, takeProlog, hspace]
  split
  · rename_i heq
    exact absurd (List.cons.inj heq).2 (cons_ne_of_isNameStart hc (by decide) _ _)
  · rename_i heq
    exact absurd (List.cons.inj heq).2 (cons_ne_of_isNameStart hc (by decide) _ _)
  · rename_i heq
    exact absurd (List.cons.inj heq).2 (cons_ne_of_isNameStart hc (by decide) _ _)
  · exact if_pos hc

theorem readEpilog_tail (fuel : Nat) : readEpilog (fuel + 1) layout.tail = .ok () := by
  have hspace : skipSpace layout.tail = [] :=
    List.dropWhile_eq_nil_iff.mpr fun c hc => (layout.tail_space c hc).1
  rw [readEpilog, hspace]

/-- **A document is read as it was written.** -/
theorem readDocument_writeDocument (layout : Layout) (h : root.Writable) :
    readDocument (writeDocument layout root) = .ok root := by
  have htext : (writeDocument layout root).toList =
      header ++ (write layout root ++ layout.tail) := by
    rw [writeDocument, String.toList_ofList]
  have hmark : (header ++ (write layout root ++ layout.tail)).head? ≠ some '\uFEFF' := by
    show some '<' ≠ some '\uFEFF'
    decide
  have hread : readCharacters (writeDocument layout root).toList = .ok root := by
    rw [htext]
    unfold readCharacters
    dsimp only
    rw [if_neg hmark, bind_of_ok (takeXmlDeclaration_writeDocument _)]
    dsimp only
    rw [bind_of_ok (takeProlog_write h _ _ _ _)]
    dsimp only
    rw [bind_of_ok (readRoot_write _ _ h _)]
    dsimp only
    rw [bind_of_ok (readEpilog_tail _)]
    rfl
  rw [readDocument, hread]
  rfl

end Documents
end HeadFinder.Markup
