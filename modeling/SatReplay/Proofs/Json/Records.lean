/-
  SatReplay/Proofs/Json/Records.lean
  ==================================
  **A record is read from any object that lists its fields.**  The members may
  stand in any order, with blanks anywhere, and members of other names among them
  are passed over, whatever their values are.

  What is read so far depends on the names seen so far only, not on their order.
  So the draft of a record is given by its `stages`, one for each list of names,
  and the run over the members follows them (`Record.membersInto_object_front`).
  It comes to the end of the object, or to the first member whose value is refused,
  and then the record is refused with the same mistake (`Record.reader_refuses`).
-/
import SatReplay.Proofs.Json.Reading

namespace SatReplay.Json

/-! ### Members -/

/-- A member of an object: its name, and the texts of the name and the value. -/
structure Member where
  name : String
  texts : MemberText

/-- The name is written as a string, and only blanks stand around it and around
    the value. -/
structure Member.IsNamed (m : Member) : Prop where
  blanks : m.texts.InBlanks
  name : IsText m.name m.texts.name.text

/-- What stands behind the name of a member. -/
def Member.afterName (m : Member) (rest : List Char) : List Char :=
  m.texts.name.after ++ ':' :: (m.texts.value.chars ++ rest)

/-- The text of an object with these members. -/
def membersText (members : List Member) : List Char := objectText (members.map Member.texts)

theorem takeName_quoted {body : List Char} {s : String} (h : Spells body s.toList)
    (rest : List Char) : takeName (quoted body ++ rest) = .ok (.named s rest) := by
  rw [quoted, List.cons_append, List.append_assoc, List.singleton_append]
  exact congrArg (Except.map _) (takeString_quoted h rest)

theorem nextMember_blanks {blanks cs : List Char} {first : Bool} (h : Blanks blanks) :
    nextMember first (blanks ++ cs) = nextMember first cs := by
  simp only [nextMember, dropBlanks_append h]

theorem Member.chars_append (m : Member) (rest : List Char) :
    m.texts.chars ++ rest =
      m.texts.name.before ++ (m.texts.name.text ++ m.afterName rest) := by
  simp only [MemberText.chars, Padded.chars, Member.afterName, List.append_assoc,
    List.cons_append]

theorem nextMember_first {m : Member} (h : m.IsNamed) (rest : List Char) :
    nextMember true (m.texts.chars ++ rest) = .ok (.named m.name (m.afterName rest)) := by
  obtain ⟨body, hbody, htext⟩ := h.name
  have hquote : isBlank '"' = false := by decide
  rw [m.chars_append, nextMember_blanks h.blanks.1.1, htext, ← takeName_quoted hbody]
  simp only [nextMember, quoted, List.cons_append, dropBlanks_cons hquote]
  rfl

theorem nextMember_further {m : Member} (h : m.IsNamed) (rest : List Char) :
    nextMember false (',' :: (m.texts.chars ++ rest)) =
      .ok (.named m.name (m.afterName rest)) := by
  obtain ⟨body, hbody, htext⟩ := h.name
  have hquote : isBlank '"' = false := by decide
  have hcomma : isBlank ',' = false := by decide
  rw [m.chars_append, htext, ← takeName_quoted hbody, nextMember, dropBlanks_cons hcomma]
  simp only [dropBlanks_append h.blanks.1.1, quoted, List.cons_append, dropBlanks_cons hquote,
    Bool.false_eq_true, if_false, if_true, Char.reduceEq, false_imp_iff]
  rfl

theorem takeColon_afterName {m : Member} (h : m.IsNamed) (rest : List Char) :
    takeColon (m.afterName rest) =
      .ok (m.texts.value.before ++ (m.texts.value.text ++ (m.texts.value.after ++ rest))) := by
  rw [Member.afterName, takeColon_append h.blanks.1.2, Padded.chars, List.append_assoc,
    List.append_assoc]

/-- The text of further members, up to the end of the object. -/
def furtherText (members : List Member) : List Char :=
  further '\x7d' ((members.map Member.texts).map MemberText.chars)

theorem delimited_furtherText (members : List Member) (rest : List Char) :
    Delimited (furtherText members ++ rest) := delimited_further (Or.inr rfl) _ rest

theorem length_le_furtherText (members : List Member) :
    members.length + 1 ≤ (furtherText members).length := by
  have hlength := length_le_further '\x7d' ((members.map Member.texts).map MemberText.chars)
  rwa [List.length_map, List.length_map] at hlength

theorem furtherText_cons (m : Member) (members : List Member) (rest : List Char) :
    furtherText (m :: members) ++ rest = ',' :: (m.texts.chars ++ (furtherText members ++ rest)) := by
  simp only [furtherText, List.map_cons, further, List.cons_append, List.append_assoc]

theorem membersText_cons (m : Member) (members : List Member) :
    membersText (m :: members) = '\x7b' :: (m.texts.chars ++ furtherText members) := rfl

/-- What comes next where members follow, or the end of the object if there are none. -/
def following (members : List Member) (rest : List Char) : NextMember :=
  match members with
  | [] => .ended rest
  | m :: members => .named m.name (m.afterName (furtherText members ++ rest))

theorem nextMember_furtherText {members : List Member} (h : ∀ m ∈ members.head?, m.IsNamed)
    {after : List Char} (hafter : Blanks after) (rest : List Char) :
    nextMember false (after ++ (furtherText members ++ rest)) = .ok (following members rest) := by
  rw [nextMember_blanks hafter]
  cases members with
  | nil => rfl
  | cons m members => rw [furtherText_cons, nextMember_further (h m rfl), following]

theorem nextMember_membersText {members : List Member} (h : ∀ m ∈ members.head?, m.IsNamed)
    (rest : List Char) :
    ∃ inner, membersText members = '\x7b' :: inner ∧
      nextMember true (inner ++ rest) = .ok (following members rest) := by
  cases members with
  | nil => exact ⟨['\x7d'], rfl, rfl⟩
  | cons m members =>
    refine ⟨_, membersText_cons m members, ?_⟩
    rw [List.append_assoc, nextMember_first (h m rfl), following]

/-! ### Fields -/

/-- The field takes the draft to its next stage: `stage seen` is the draft when
    members of these names have been read, and `text` tells the texts of values. -/
structure Field.Advances {σ : Type} (field : Field σ) (depth : Nat)
    (text : String → List Char → Prop) (stage : List String → σ) : Prop where
  unset : ∀ seen, field.name ∉ seen → field.isSet (stage seen) = false
  read : ∀ seen cs before rest, text field.name cs → Blanks before → Delimited rest →
    field.read depth (stage seen) (before ++ (cs ++ rest)) = .ok (stage (field.name :: seen), rest)

theorem Field.Advances.of {σ α : Type} {name : String} {reader : Reader α} {get : σ → Option α}
    {set : α → σ → σ} {depth : Nat} {text : String → List Char → Prop} {stage : List String → σ}
    (a : α) (hget : ∀ seen, name ∉ seen → get (stage seen) = none)
    (hset : ∀ seen, set a (stage seen) = stage (name :: seen))
    (hreads : ∀ cs, text name cs → reader.Reads depth cs a) :
    (Field.of name reader get set).Advances depth text stage := by
  constructor
  · intro seen hnew
    exact congrArg Option.isSome (hget seen hnew)
  · intro seen cs before rest htext hbefore hrest
    simp only [Field.of, hreads cs htext before rest hbefore hrest, Except.map, hset]

/-- The text is JSON, but the reader makes this mistake with it. -/
def Reader.Refuses {α : Type} (reader : Reader α) (depth : Nat) (text : List Char)
    (mistake : Mistake) : Prop :=
  ∀ before rest, Blanks before → Delimited rest →
    ∃ stop, stop.mistake = mistake ∧ reader depth (before ++ (text ++ rest)) = .error stop

/-- The field does not read the text into any draft. -/
def Field.Refuses {σ : Type} (field : Field σ) (depth : Nat) (text : List Char)
    (mistake : Mistake) : Prop :=
  ∀ draft before rest, Blanks before → Delimited rest →
    ∃ stop, stop.mistake = mistake ∧ field.read depth draft (before ++ (text ++ rest)) = .error stop

theorem Field.Refuses.of {σ α : Type} {name : String} {reader : Reader α} {get : σ → Option α}
    {set : α → σ → σ} {depth : Nat} {text : List Char} {mistake : Mistake}
    (h : reader.Refuses depth text mistake) :
    (Field.of name reader get set).Refuses depth text mistake := by
  intro draft before rest hbefore hrest
  obtain ⟨stop, hmistake, hread⟩ := h before rest hbefore hrest
  exact ⟨stop, hmistake, by simp only [Field.of, hread, Except.map]⟩

namespace Record

variable {σ α : Type} {r : Record σ α} {depth : Nat} {stage : List String → σ}
  {text : String → List Char → Prop} {a : α}

/-- The record is read in stages, of which the last gives this value. -/
structure Stages (r : Record σ α) (depth : Nat) (text : String → List Char → Prop)
    (stage : List String → σ) (a : α) : Prop where
  blank : r.blank = stage []
  other : ∀ name seen, (∀ field ∈ r.fields, field.name ≠ name) →
    stage (name :: seen) = stage seen
  fields : ∀ field ∈ r.fields, field.Advances depth text stage
  complete : ∀ seen, (∀ field ∈ r.fields, field.name ∈ seen) → r.complete (stage seen) = .ok a

/-- The value of the member has the text of the field of its name, and if there is
    no such field, of any value. -/
structure Suits (r : Record σ α) (text : String → List Char → Prop) (m : Member) : Prop where
  named : m.IsNamed
  field : ∀ field ∈ r.fields, field.name = m.name → text m.name m.texts.value.text
  other : (∀ field ∈ r.fields, field.name ≠ m.name) → IsValue m.texts.value.text

theorem Suits.of_field {m : Member} (hm : m.IsNamed) (hfield : ∃ field ∈ r.fields, field.name = m.name)
    (htext : text m.name m.texts.value.text) : r.Suits text m := by
  refine ⟨hm, fun _ _ _ => htext, ?_⟩
  intro hother
  obtain ⟨field, hmem, hname⟩ := hfield
  exact absurd hname (hother field hmem)

theorem Suits.of_other {m : Member} (hm : m.IsNamed) (hother : ∀ field ∈ r.fields, field.name ≠ m.name)
    (hvalue : IsValue m.texts.value.text) : r.Suits text m :=
  ⟨hm, fun field hmem hname => absurd hname (hother field hmem), fun _ => hvalue⟩

/-- The members list the fields of the record once each, in any order and with
    members of other names anywhere among them. -/
structure Lists (r : Record σ α) (text : String → List Char → Prop) (members : List Member) :
    Prop where
  suits : ∀ m ∈ members, r.Suits text m
  once : ∀ field ∈ r.fields, (members.map Member.name).count field.name = 1

/-! ### The run over the members -/

theorem membersInto_ended {first : Bool} {cs rest : List Char}
    (hnext : nextMember first cs = .ok (.ended rest)) (steps : Nat) (draft : σ) :
    r.membersInto depth (steps + 1) first draft cs = .ok (draft, rest) := by
  simp only [membersInto, hnext]

theorem membersInto_member (hr : r.Stages depth text stage a) {m : Member} (hm : r.Suits text m)
    {seen : List String} (hseen : ∀ field ∈ r.fields, field.name = m.name → m.name ∉ seen)
    {first : Bool} {cs rest : List Char}
    (hnext : nextMember first cs = .ok (.named m.name (m.afterName rest)))
    (hrest : Delimited rest) (steps : Nat) :
    r.membersInto depth (steps + 1) first (stage seen) cs =
      r.membersInto depth steps false (stage (m.name :: seen)) (m.texts.value.after ++ rest) := by
  have hbefore := hm.named.blanks.2.1
  have hafter := hrest.append_blanks hm.named.blanks.2.2
  simp only [membersInto, hnext, takeColon_afterName hm.named]
  rcases hfind : r.fields.find? (·.name = m.name) with _ | field
  · have hother : ∀ field ∈ r.fields, field.name ≠ m.name := by
      simpa using List.find?_eq_none.1 hfind
    simp only [hfind, skipValue_append (hm.other hother) hbefore hafter, hr.other m.name seen hother]
  · have hfield : field ∈ r.fields := List.mem_of_find?_eq_some hfind
    have hfound := List.find?_some hfind
    have hname : field.name = m.name := of_decide_eq_true hfound
    rw [← hname] at hseen
    have hunset := (hr.fields field hfield).unset seen (hseen field hfield rfl)
    have htext := hm.field field hfield hname
    rw [← hname] at htext ⊢
    have hread := (hr.fields field hfield).read seen _ _ _ htext hbefore hafter
    rw [← hname] at hfind
    simp only [hfind, hunset, hread, Bool.false_eq_true, if_false]

/-- The run over suitable members goes on with what follows them. -/
theorem membersInto_front (hr : r.Stages depth text stage a) {front : List Member} (steps : Nat)
    (others : List Member) (rest : List Char) :
    ∀ (seen : List String) (after : List Char), (∀ m ∈ front, r.Suits text m) →
      (∀ field ∈ r.fields, (seen ++ front.map Member.name).count field.name ≤ 1) → Blanks after →
      ∃ all last, (∀ name, name ∈ all ↔ name ∈ seen ∨ name ∈ front.map Member.name) ∧
        Blanks last ∧
        r.membersInto depth (steps + front.length) false (stage seen)
            (after ++ (furtherText (front ++ others) ++ rest)) =
          r.membersInto depth steps false (stage all) (last ++ (furtherText others ++ rest)) := by
  induction front with
  | nil => exact fun seen after _ _ hafter => ⟨seen, after, by simp, hafter, rfl⟩
  | cons m front ih =>
    intro seen after hsuits hcount hafter
    have hm := hsuits m (by simp)
    have hseen : ∀ field ∈ r.fields, field.name = m.name → m.name ∉ seen := by
      intro field hfield hname hmem
      have hpos := List.count_pos_iff.2 hmem
      have hle := hcount field hfield
      rw [List.map_cons, hname, List.count_append, List.count_cons_self] at hle
      omega
    have hcount' : ∀ field ∈ r.fields,
        ((m.name :: seen) ++ front.map Member.name).count field.name ≤ 1 := by
      intro field hfield
      have hle := hcount field hfield
      rwa [List.map_cons, List.perm_middle.count_eq] at hle
    have hnamed : ∀ n ∈ (m :: (front ++ others)).head?, n.IsNamed := by
      rintro n ⟨⟩
      exact hm.named
    have hnext := nextMember_furtherText hnamed hafter rest
    obtain ⟨all, last, hall, hlast, hrun⟩ := ih (m.name :: seen) m.texts.value.after
      (fun n hn => hsuits n (by simp [hn])) hcount' hm.named.blanks.2.2
    refine ⟨all, last, ?_, hlast, ?_⟩
    · intro name
      rw [hall, List.map_cons, List.mem_cons, List.mem_cons, or_assoc, or_left_comm]
    · rw [List.length_cons, ← Nat.add_assoc, List.cons_append,
        membersInto_member hr hm hseen hnext (delimited_furtherText _ rest), hrun]

/-- The run over an object comes behind its suitable members to what follows them. -/
theorem membersInto_object_front (hr : r.Stages depth text stage a) {front others : List Member}
    (hfront : ∀ m ∈ front, r.Suits text m)
    (hcount : ∀ field ∈ r.fields, (front.map Member.name).count field.name ≤ 1)
    (hothers : ∀ m ∈ others.head?, m.IsNamed) (rest : List Char) :
    ∃ inner all steps first cs, membersText (front ++ others) = '\x7b' :: inner ∧
      (∀ name, name ∈ all ↔ name ∈ front.map Member.name) ∧
      nextMember first cs = .ok (following others rest) ∧
      r.membersInto depth ((inner ++ rest).length + 1) true r.blank (inner ++ rest) =
        r.membersInto depth (steps + 1) first (stage all) cs := by
  cases front with
  | nil =>
    obtain ⟨inner, hinner, hnext⟩ := nextMember_membersText hothers rest
    exact ⟨inner, [], (inner ++ rest).length, true, inner ++ rest, hinner, by simp, hnext,
      by rw [hr.blank]⟩
  | cons m front =>
    have hm := hfront m (by simp)
    have hnext := nextMember_first hm.named (furtherText (front ++ others) ++ rest)
    rw [← List.append_assoc] at hnext
    obtain ⟨steps, hsteps⟩ : ∃ k, (m.texts.chars ++ furtherText (front ++ others) ++ rest).length =
        k + 1 + front.length := by
      have hlength := length_le_furtherText (front ++ others)
      rw [List.length_append] at hlength
      refine ⟨(m.texts.chars ++ furtherText (front ++ others) ++ rest).length - 1 - front.length, ?_⟩
      rw [List.length_append, List.length_append]
      omega
    obtain ⟨all, last, hall, hlast, hrun⟩ := membersInto_front hr (steps + 1) others rest [m.name]
      m.texts.value.after (fun n hn => hfront n (by simp [hn])) hcount hm.named.blanks.2.2
    refine ⟨_, all, steps, false, last ++ (furtherText others ++ rest),
      membersText_cons m (front ++ others), ?_, nextMember_furtherText hothers hlast rest, ?_⟩
    · intro name
      rw [hall, List.mem_singleton, List.map_cons, List.mem_cons]
    · rw [hr.blank, membersInto_member hr hm (fun _ _ _ => List.not_mem_nil) hnext
        (delimited_furtherText _ rest), hsteps, hrun]

/-- An object that lists the fields of a record is read to the last stage. -/
theorem membersInto_object (hr : r.Stages depth text stage a) {members : List Member}
    (h : r.Lists text members) (rest : List Char) :
    ∃ inner all, membersText members = '\x7b' :: inner ∧
      (∀ field ∈ r.fields, field.name ∈ all) ∧
      r.membersInto depth ((inner ++ rest).length + 1) true r.blank (inner ++ rest) =
        .ok (stage all, rest) := by
  have hnone : ∀ m ∈ ([] : List Member).head?, m.IsNamed := by
    rintro m ⟨⟩
  obtain ⟨inner, all, steps, first, cs, htext, hall, hnext, hrun⟩ :=
    membersInto_object_front hr h.suits (fun field hfield => Nat.le_of_eq (h.once field hfield))
      hnone rest
  rw [List.append_nil] at htext
  refine ⟨inner, all, htext, ?_, ?_⟩
  · intro field hfield
    have hpos : 0 < (members.map Member.name).count field.name := by
      rw [h.once field hfield]
      exact Nat.one_pos
    exact (hall field.name).2 (List.count_pos_iff.1 hpos)
  · rw [hrun, membersInto_ended hnext]

theorem reader_reads (hr : r.Stages depth text stage a) {members : List Member}
    (h : r.Lists text members) : r.reader.Reads (depth + 1) (membersText members) a := by
  intro before rest hbefore _
  obtain ⟨inner, all, htext, hall, hrun⟩ := membersInto_object hr h rest
  have hfound : Found.read ('\x7b' :: inner ++ rest) = .ok (.map, inner ++ rest) := rfl
  simp only [reader, htext, foundRead_blanks hbefore, hfound, inside, readWith, hrun, finish,
    hr.complete all hall]

/-! ### Refusals -/

/-- The first member whose value is refused stops the run. -/
theorem membersInto_refused (hr : r.Stages depth text stage a) {m : Member} (hm : m.IsNamed)
    {field : Field σ} (hfind : r.fields.find? (·.name = m.name) = some field) {mistake : Mistake}
    (hrefuses : field.Refuses depth m.texts.value.text mistake) {seen : List String}
    (hseen : m.name ∉ seen) {first : Bool} {cs rest : List Char}
    (hnext : nextMember first cs = .ok (.named m.name (m.afterName rest)))
    (hrest : Delimited rest) (steps : Nat) :
    ∃ stop, stop.mistake = mistake ∧
      r.membersInto depth (steps + 1) first (stage seen) cs = .error stop := by
  have hfound := List.find?_some hfind
  have hname : field.name = m.name := of_decide_eq_true hfound
  have hunset : field.isSet (stage seen) = false :=
    (hr.fields field (List.mem_of_find?_eq_some hfind)).unset seen (hname ▸ hseen)
  obtain ⟨stop, hmistake, hread⟩ := hrefuses (stage seen) _ _ hm.blanks.2.1
    (hrest.append_blanks hm.blanks.2.2)
  refine ⟨stop, hmistake, ?_⟩
  simp only [membersInto, hnext, takeColon_afterName hm, hfind, hunset, hread, Bool.false_eq_true,
    if_false]

/-- A record is refused for the first member whose value its field refuses, whatever
    comes after it. -/
theorem reader_refuses (hr : r.Stages depth text stage a) {front : List Member} {m : Member}
    (hfront : ∀ n ∈ front, r.Suits text n)
    (hcount : ∀ field ∈ r.fields, (front.map Member.name).count field.name ≤ 1)
    (hm : m.IsNamed) (hnew : m.name ∉ front.map Member.name) {field : Field σ}
    (hfind : r.fields.find? (·.name = m.name) = some field) {mistake : Mistake}
    (hrefuses : field.Refuses depth m.texts.value.text mistake) (others : List Member) :
    r.reader.Refuses (depth + 1) (membersText (front ++ m :: others)) mistake := by
  intro before rest hbefore _
  have hnamed : ∀ n ∈ (m :: others).head?, n.IsNamed := by
    rintro n ⟨⟩
    exact hm
  obtain ⟨inner, all, steps, first, cs, htext, hall, hnext, hrun⟩ :=
    membersInto_object_front hr hfront hcount hnamed rest
  obtain ⟨stop, hmistake, hstop⟩ := membersInto_refused hr hm hfind hrefuses
    (fun hseen => hnew ((hall m.name).1 hseen)) hnext (delimited_furtherText others rest) steps
  have hfound : Found.read ('\x7b' :: inner ++ rest) = .ok (.map, inner ++ rest) := rfl
  refine ⟨stop, hmistake, ?_⟩
  simp only [reader, htext, foundRead_blanks hbefore, hfound, inside, readWith, hrun, hstop]

end Record

theorem delimited_of_blanks {blanks : List Char} (h : Blanks blanks) : Delimited blanks := by
  have hempty : Delimited (blanks ++ []) := .append_blanks h trivial
  rwa [List.append_nil] at hempty

/-- What a reader takes off the front it reads from a text that holds nothing else. -/
theorem Reader.readText_eq {α : Type} {reader : Reader α} {cs : List Char} {a : α}
    (h : reader.Reads maxDepth cs a) {before after : List Char} (hbefore : Blanks before)
    (hafter : Blanks after) {text : String} (htext : text.toList = before ++ (cs ++ after)) :
    reader.readText text = .ok a := by
  refine readText_eq_ok_iff.2 ⟨after, ?_, dropBlanks_of_blanks hafter⟩
  rw [htext, h before after hbefore (delimited_of_blanks hafter)]

/-- A text that a reader refuses is an error with the same mistake. -/
theorem Reader.readText_eq_error {α : Type} {reader : Reader α} {cs : List Char} {mistake : Mistake}
    (h : reader.Refuses maxDepth cs mistake) {before after : List Char} (hbefore : Blanks before)
    (hafter : Blanks after) {text : String} (htext : text.toList = before ++ (cs ++ after)) :
    ∃ e : ReadError, e.mistake = mistake ∧ reader.readText text = .error e := by
  obtain ⟨stop, hmistake, hread⟩ := h before after hbefore (delimited_of_blanks hafter)
  exact ⟨stop.inText text.toList, hmistake, by simp only [readText, htext, hread]⟩

end SatReplay.Json
