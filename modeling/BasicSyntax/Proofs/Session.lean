import BasicSyntax.Proofs.Format
import BasicSyntax.Session

/-! # Sessions — what is answered to a line, and where a session ends

    A line that is read is answered by nothing, by one complaint or by one text, and by which of
    them is told by the line and the way of showing alone (`Answered`).  A session is these
    answers one after the other.  It ends with the input or at a line that asks to leave — or, and
    nothing else ends it, at a line that would be a program if it had no number that is too long
    to be read (`run_answered`).

    So a session outlives every line but those: rendering never fails, since what is read has a
    form of every kind, and a syntax error is told.  The length of a number is looked at behind
    all that, and what comes of it is no syntax error (`run_long_number`). -/

namespace BasicSyntax.Session

/-! ## One line -/

/-- What a line says: its text without the space around it. -/
def said (line : String) : String := String.ofList (Text.trim Text.isSpace line.toList)

/-- There is nothing to answer to a line: it is blank, or all its statements are empty. -/
def Idle (line : String) : Prop :=
  said line = "" ∨ ∃ stmts, Program.read (said line) = .ok stmts ∧ ∀ n ∈ stmts, n = .null

/-- A line is answered by what the host is told. -/
inductive Answered (mode : Mode) (line : String) : List Event → Prop
  | nothing : Idle line → Answered mode line []
  | complaint {e : SyntaxError} : Program.read (said line) = .error (.syntaxError e) →
      Answered mode line [.complain ("PARSE ERROR: " ++ e.text)]
  | shown {stmts : List Node} {text : String} : Program.readLine (said line) = .ok stmts →
      stmts ≠ [] → render mode stmts = .ok text → Answered mode line [.emit text]

/-- A line is a program but for a number that is too long. -/
def Unreadable (line : String) (digits : Nat) : Prop :=
  Program.read (said line) = .error (.longNumber digits)

section

variable {mode : Mode} {line : String}

theorem exchange_eq : exchange mode line =
    if (said line).isEmpty then ⟨none, .nothing⟩
    else if asksToLeave (said line) then ⟨none, .leave⟩
    else ⟨some (Program.readLine (said line)),
      answerTo mode (Program.readLine (said line))⟩ := rfl

theorem exchange_blank (h : said line = "") : exchange mode line = ⟨none, .nothing⟩ := by
  have hempty : (said line).isEmpty = true := by simp [h]
  rw [exchange_eq, if_pos hempty]

theorem exchange_leave (h : asksToLeave (said line) = true) :
    exchange mode line = ⟨none, .leave⟩ := by
  have hne : ¬ (said line).isEmpty = true := by
    intro hempty
    rw [String.isEmpty_iff.mp hempty] at h
    exact nomatch h
  rw [exchange_eq, if_neg hne, if_pos h]

theorem answer_read (hne : said line ≠ "") (h : asksToLeave (said line) = false) :
    (exchange mode line).answer = answerTo mode (Program.readLine (said line)) := by
  have hne' : ¬ (said line).isEmpty = true := fun hempty => hne (String.isEmpty_iff.mp hempty)
  have hstay : ¬ asksToLeave (said line) = true := by simp [h]
  rw [exchange_eq, if_neg hne', if_neg hstay]

end

/-- What is answered when reading a line gives nodes: they have a form of every kind. -/
theorem answered_read (mode : Mode) {line : String} {stmts : List Node}
    (hread : Program.read (said line) = .ok stmts) :
    (answerTo mode (Program.readLine (said line))).isLast = false ∧
      Answered mode line (answerTo mode (Program.readLine (said line))).events := by
  have hline : Program.readLine (said line) = .ok (stmts.filter fun n => !n.isNull) := by
    rw [Program.readLine, hread]
    rfl
  cases hleft : stmts.filter fun n => !n.isNull with
  | nil =>
      rw [hline, hleft]
      refine ⟨rfl, .nothing (.inr ⟨stmts, hread, fun n hn => ?_⟩)⟩
      have hno := List.filter_eq_nil_iff.mp hleft n hn
      cases n with
      | null => rfl
      | _ => exact (hno rfl).elim
  | cons n ns =>
      have hentries : ∀ m ∈ n :: ns, m.IsEntry := by
        intro m hm
        rw [← hleft] at hm
        exact Program.read_entries hread m (List.mem_of_mem_filter hm)
      obtain ⟨text, hrender⟩ := render_entries mode hentries
      have hanswer : answerTo mode (Program.readLine (said line)) = .shown text := by
        rw [hline, hleft]
        simp only [answerTo, hrender]
      rw [hanswer]
      rw [hleft] at hline
      exact ⟨rfl, .shown hline (List.cons_ne_nil n ns) hrender⟩

/-- **ONE LINE**: a line asks to leave, or is a program but for a number that is too long, which
    nobody provides for, or is answered and the session goes on. -/
theorem exchange_cases (mode : Mode) (line : String) :
    (asksToLeave (said line) = true ∧ exchange mode line = ⟨none, .leave⟩) ∨
    (∃ digits, Unreadable line digits ∧
      (exchange mode line).answer = .escape (.longNumber digits)) ∨
    (asksToLeave (said line) = false ∧ (exchange mode line).answer.isLast = false ∧
      Answered mode line (exchange mode line).answer.events) := by
  cases hleave : asksToLeave (said line) with
  | true => exact .inl ⟨rfl, exchange_leave hleave⟩
  | false =>
      by_cases hblank : said line = ""
      · rw [exchange_blank hblank]
        exact .inr (.inr ⟨rfl, rfl, .nothing (.inl hblank)⟩)
      rw [answer_read hblank hleave]
      cases hread : Program.read (said line) with
      | ok stmts =>
          exact .inr (.inr ⟨rfl, answered_read mode hread⟩)
      | error e =>
          have hline : Program.readLine (said line) = .error e := by
            rw [Program.readLine, hread]
            rfl
          rw [hline]
          cases e with
          | syntaxError e => exact .inr (.inr ⟨rfl, rfl, .complaint hread⟩)
          | longNumber digits => exact .inr (.inl ⟨digits, hread, rfl⟩)

/-! ## All lines -/

/-- How a session ends where some lines are left: what the host is told last, and how many lines
    it is not asked for. -/
inductive Ends : List (Option String) → List Event → Nat → Prop
  | exhausted : Ends [] [.ask prompt] 0
  | ended (rest : List (Option String)) : Ends (none :: rest) [.ask prompt] rest.length
  | left {line : String} (rest : List (Option String)) : asksToLeave (said line) = true →
      Ends (some line :: rest) [.ask prompt] rest.length
  | escaped {line : String} (rest : List (Option String)) {digits : Nat} :
      Unreadable line digits →
      Ends (some line :: rest) [.ask prompt, .stop (.longNumber digits)] rest.length

/-- What the host is told from a line on is told of that line alone, and then of the others. -/
theorem converse_answered (mode : Mode) : ∀ lines : List (Option String),
    ∃ (answered : List String) (rest : List (Option String)) (last : List Event) (unread : Nat),
      lines = answered.map some ++ rest ∧
      (∀ line ∈ answered, asksToLeave (said line) = false ∧
        Answered mode line (exchange mode line).answer.events) ∧
      Ends rest last unread ∧
      ((converse mode lines).1.flatMap Exchange.events, (converse mode lines).2) =
        (answered.flatMap (fun line => (exchange mode line).events) ++ last, unread) := by
  intro lines
  induction lines with
  | nil => exact ⟨[], [], _, _, rfl, List.forall_mem_nil _, .exhausted, rfl⟩
  | cons first rest ih =>
      cases first with
      | none => exact ⟨[], _, _, _, rfl, List.forall_mem_nil _, .ended rest, rfl⟩
      | some line =>
          rcases exchange_cases mode line with
            ⟨hleave, heq⟩ | ⟨digits, hlong, heq⟩ | ⟨hstay, hlast, ha⟩
          · refine ⟨[], _, _, _, rfl, List.forall_mem_nil _, .left rest hleave, ?_⟩
            simp [converse, heq, Answer.isLast, Exchange.events, Answer.events]
          · refine ⟨[], _, _, _, rfl, List.forall_mem_nil _, .escaped rest hlong, ?_⟩
            simp [converse, heq, Answer.isLast, Exchange.events, Answer.events]
          · obtain ⟨answered, left, last, unread, hlines, hall, hends, hsaid⟩ := ih
            refine ⟨line :: answered, left, last, unread, ?_, ?_, hends, ?_⟩
            · rw [hlines]
              rfl
            · exact List.forall_mem_cons.mpr ⟨⟨hstay, ha⟩, hall⟩
            · obtain ⟨htold, hunread⟩ := Prod.mk.inj hsaid
              simp [converse, hlast, htold, hunread]

/-- **SESSIONS**: the host of a session is greeted, and is then told of one line after the other
    what is answered to it, which the line and the way of showing alone decide: nothing, one
    complaint or one text.  So it goes on to the end of the input or to a line that asks to leave,
    and it stops before only at a line that would be a program if no number in it were too
    long. -/
theorem run_answered (mode : Mode) (lines : List (Option String)) :
    ∃ (answered : List String) (rest : List (Option String)) (last : List Event) (unread : Nat),
      lines = answered.map some ++ rest ∧
      (∀ line ∈ answered, asksToLeave (said line) = false ∧
        Answered mode line (exchange mode line).answer.events) ∧
      Ends rest last unread ∧
      run mode lines = (greeting.map .emit ++
        (answered.flatMap (fun line => .ask prompt :: (exchange mode line).answer.events) ++ last),
        unread) := by
  obtain ⟨answered, rest, last, unread, hlines, hall, hends, hsaid⟩ := converse_answered mode lines
  refine ⟨answered, rest, last, unread, hlines, hall, hends, ?_⟩
  obtain ⟨htold, hunread⟩ := Prod.mk.inj hsaid
  refine Prod.ext ?_ hunread
  exact congrArg (greeting.map Event.emit ++ ·) htold

/-! ## Numbers that are too long -/

/-- Text without space is said as it is. -/
theorem said_same {text : List Char} (h : ∀ c ∈ text, Text.isSpace c = false) :
    said (String.ofList text) = String.ofList text := by
  have hdrop : ∀ rest : List Char, (∀ c ∈ rest, Text.isSpace c = false) →
      rest.dropWhile Text.isSpace = rest := by
    intro rest hrest
    refine List.dropWhile_eq_self_iff.mpr fun hl => ?_
    simp [hrest _ (List.getElem_mem hl)]
  have hback := hdrop text.reverse fun c hc => h c (List.mem_reverse.mp hc)
  rw [said, String.toList_ofList, Text.trim, hdrop text h, Text.trimEnd, hback,
    List.reverse_reverse]

/-- A digit neither surrounds a line nor ends one. -/
theorem class_digit {c : Char} (h : c.isDigit = true) :
    Text.isSpace c = false ∧ Program.isSeparator c = false := by
  simp only [Char.isDigit, Bool.and_eq_true, decide_eq_true_eq] at h
  have hle : 48 ≤ c.toNat := h.1
  have hge : c.toNat ≤ 57 := h.2
  constructor
  · simp only [Text.isSpace, Bool.or_eq_false_iff, Bool.and_eq_false_iff, decide_eq_false_iff_not,
      beq_eq_false_iff_ne]
    omega
  · rw [Program.isSeparator, Bool.or_eq_false_iff, beq_eq_false_iff_ne, beq_eq_false_iff_ne]
    constructor
    · rintro rfl
      exact absurd hge (by decide)
    · rintro rfl
      exact absurd hle (by decide)

/-- A number of too many digits is no program, though there is no other error in it. -/
theorem unreadable_number {digits : List Char} (h : Terminal.number.Writes digits)
    (hlong : Text.digitLimit < digits.length) :
    Unreadable (String.ofList digits) digits.length := by
  have hsaid := said_same fun c hc => (class_digit (h.2 c hc)).1
  have hcomplete : Program.complete digits = digits ++ ['\n'] :=
    Program.complete_unseparated (List.getLast?_eq_some_getLast h.1)
      (class_digit (h.2 _ (List.getLast_mem h.1))).2
  have hcut := Program.scan_number digits h
  obtain ⟨stmts, hstmts⟩ : ∃ stmts, Program.statements (digits ++ ['\n']) = .ok stmts := by
    rw [Program.statements, hcut]
    exact ⟨_, rfl⟩
  have htoo : Program.longNumber? (Tokens.ofText (digits ++ ['\n'])).tokens =
      some digits.length := by
    rw [hcut]
    simp [Program.longNumber?, hlong]
  rw [← hcomplete, ← String.toList_ofList (l := digits)] at hstmts htoo
  rw [Unreadable, hsaid, Program.read_long hstmts htoo, String.toList_ofList]

/-- Nothing but its number is wrong with a line that ends a session. -/
theorem answer_unreadable (mode : Mode) {line : String} {digits : Nat}
    (h : Unreadable line digits) : (exchange mode line).answer = .escape (.longNumber digits) := by
  have hno : ∀ text, (Program.read text).isOk = true → said line ≠ text := by
    rintro text hok rfl
    rw [h] at hok
    exact nomatch hok
  have hstay : asksToLeave (said line) = false := by
    rw [asksToLeave, Bool.or_eq_false_iff, beq_eq_false_iff_ne, beq_eq_false_iff_ne]
    exact ⟨hno "exit" (by decide +kernel), hno "quit" (by decide +kernel)⟩
  rw [answer_read (hno "" rfl) hstay, Program.readLine, h]
  rfl

/-- A session that begins with such a line is over. -/
theorem run_unreadable (mode : Mode) {line : String} {digits : Nat}
    (h : Unreadable line digits) (rest : List (Option String)) :
    run mode (some line :: rest) =
      (greeting.map .emit ++ [.ask prompt, .stop (.longNumber digits)], rest.length) := by
  have hanswer := answer_unreadable mode h
  simp [run, converse, hanswer, Answer.isLast, Exchange.events, Answer.events]

/-- A line of 4301 digits ends a session, and the line behind it is not asked for. -/
theorem run_long_number :
    run .listing [some (String.ofList (List.replicate 4301 '7')), some "1"] =
      (greeting.map .emit ++ [.ask prompt, .stop (.longNumber 4301)], 1) := by
  have hwrites : Terminal.number.Writes (List.replicate 4301 '7') := by
    refine ⟨List.cons_ne_nil _ _, fun c hc => ?_⟩
    rw [List.eq_of_mem_replicate hc]
    rfl
  have hlength : (List.replicate 4301 '7').length = 4301 := List.length_replicate
  have hunreadable := unreadable_number hwrites (by rw [hlength]; decide)
  rw [hlength] at hunreadable
  exact run_unreadable .listing hunreadable [some "1"]

end BasicSyntax.Session
