import BasicSyntax.Proofs.Grammar.Shape
import BasicSyntax.Proofs.Node.Unplaced
import BasicSyntax.Proofs.Source.Setting

/-! # Brackets around operands — each pair is needed, and none is missing

    Take a joined operand anywhere in a well-formed statement, and write the statement with the
    operand bare.  `read_bare` says that the text is read in any case, and that it is read as
    another tree exactly if the source form has brackets there.

    Without brackets to take away, the bare text is the source form, which reads back.  With
    them it is the source form of the tree in which the operand is spliced (`source_bare`), so
    it reads as that one.  The two trees are told apart by their source forms: one is longer
    than the other by a pair of brackets.

    What stands around an operand is found by writing a name in its place. -/

namespace BasicSyntax

open Printing

/-- What stands around a joined operand in the source form of a statement; and the bare text is
    a source form too. -/
theorem Setting.source_bare {setting : Setting} {side : Side} {op inner : Operator}
    {l r other : Node} (h : (setting.fill (side.join op (.binary l inner r) other)).IsStmt) :
    ∃ front text back,
      (∀ raw, (setting.fill (side.join op (.binder ⟨raw, none⟩) other)).source =
        .ok (front ++ raw ++ back)) ∧
      (Node.print Node.sourceIndent (.binary l inner r) setting.depth).1 = .ok text ∧
      (setting.fill (side.join op (.binary l inner r) other)).source =
        .ok (front ++ bracketed (side.regroups op (.binary l inner r)) text ++ back) ∧
      ∃ t : Node, t.IsStmt ∧ t.source = .ok (front ++ text ++ back) := by
  obtain ⟨role, hrole⟩ := Setting.fits (r := .statement) h
  obtain ⟨hinner, hop, hother⟩ := Side.join_operands (hrole.isExpr (by cases side <;> rfl))
  obtain ⟨text, hp, -⟩ := hinner.printed Node.sourceIndent_filler setting.depth
  -- what stands beside the operator, and what from there to the root
  obtain ⟨hreplaces, hbeside⟩ := Frame.splice Node.sourceIndent_filler side hinner rfl hop hother
  obtain ⟨x, y, hjoined, hspliced⟩ := hbeside setting.depth
  obtain ⟨t, ht, front, back, hsame, hbare⟩ :=
    Setting.replace Node.sourceIndent_filler (r := .statement) hreplaces h
  have hsource : ∀ k text, Yields (Node.print Node.sourceIndent k) setting.depth text →
      (setting.fill (side.join op k other)).source =
        .ok (front ++ x ++ bracketed (side.wraps op k) text ++ (y ++ back)) := by
    intro k text hk
    have hwhole := hsame _ _ (Frame.fill_alike (.operand side op other) k _) (hjoined k text hk)
    simp only [String.append_assoc] at hwhole ⊢
    exact congrArg Prod.fst hwhole
  refine ⟨front ++ x, text, y ++ back, fun raw => ?_, congrArg Prod.fst hp, hsource _ text hp, t,
    ht, ?_⟩
  · have hname : side.wraps op (.binder ⟨raw, none⟩) = false := by cases side <;> rfl
    have hplaced := hsource (.binder ⟨raw, none⟩) raw (yields_pure raw _)
    rw [hname] at hplaced
    exact hplaced
  · have hwhole := hbare _ (hspliced text hp)
    simp only [String.append_assoc] at hwhole ⊢
    exact congrArg Prod.fst hwhole

namespace Program

/-- **BRACKETS**: a joined operand stands in brackets in the source form exactly if the text
    without this pair is read as another tree; that it is read, it is in any case. -/
theorem read_bare (setting : Setting) (side : Side) (op inner : Operator) (l r other : Node)
    (h : (setting.fill (side.join op (.binary l inner r) other)).IsStmt) :
    ∃ front text back,
      (∀ raw, (setting.fill (side.join op (.binder ⟨raw, none⟩) other)).source =
        .ok (front ++ raw ++ back)) ∧
      (Node.print Node.sourceIndent (.binary l inner r) setting.depth).1 = .ok text ∧
      (setting.fill (side.join op (.binary l inner r) other)).source =
        .ok (front ++ bracketed (side.regroups op (.binary l inner r)) text ++ back) ∧
      ∃ m, read (front ++ text ++ back) = .ok [m] ∧
        (side.regroups op (.binary l inner r) = true ↔
          m.agrees (setting.fill (side.join op (.binary l inner r) other)) = false) := by
  obtain ⟨front, text, back, hname, hp, hsource, t, ht, hbare⟩ := Setting.source_bare h
  refine ⟨front, text, back, hname, hp, hsource, ?_⟩
  cases hw : side.regroups op (.binary l inner r) with
  | false =>
      -- there is nothing to take away, and the source form reads back
      rw [hw] at hsource
      obtain ⟨whole, hwhole, m, hread, hagree⟩ := read_statement h
      obtain rfl := Except.ok.inj (hsource.symm.trans hwhole)
      exact ⟨m, hread,
        iff_of_false Bool.noConfusion fun h => Bool.noConfusion (hagree.symm.trans h)⟩
  | true =>
      obtain ⟨whole, hwhole, m, hread, hagree⟩ := read_statement ht
      obtain rfl := Except.ok.inj (hbare.symm.trans hwhole)
      refine ⟨m, hread, iff_of_true rfl (Bool.eq_false_iff.mpr fun hsame => ?_)⟩
      have hm : m.IsPrintable := (read_entries hread m (List.mem_singleton_self m)).printable
      -- what agrees with both trees would make their source forms the same
      have htexts := (Node.source_agrees hm ht.printable hagree).symm.trans
        (Node.source_agrees hm h.printable hsame)
      rw [hbare, hsource, hw] at htexts
      have hlength := congrArg String.length (Except.ok.inj htexts)
      have hopen : "(".length = 1 := rfl
      rw [bracketed, if_pos rfl] at hlength
      simp only [String.length_append] at hlength
      omega

/-- The assignment `x <- (a - b) * c`. -/
def scaledDifference : Node :=
  let name (text : String) := Node.binder ⟨text, none⟩
  .binary (name "x") ⟨.assign, none⟩
    (.binary (.binary (name "a") ⟨.minus, none⟩ (name "b")) ⟨.times, none⟩ (name "c"))

/-- The brackets around the difference are needed. -/
theorem read_bare_difference : scaledDifference.IsStmt ∧ ∃ front text back,
    scaledDifference.source = .ok (front ++ ("(" ++ text ++ ")") ++ back) ∧
      ∃ m, read (front ++ text ++ back) = .ok [m] ∧ m.agrees scaledDifference = false := by
  have hletter : ∀ c : Char, Text.isWordChar c = true → Text.isDecimalDigit c = false →
      [c] ∉ reservedWords → IsName [c] := by
    intro c hword hdigit hfree
    exact ⟨List.cons_ne_nil c [], List.forall_mem_singleton.mpr hword,
      fun d hd => Option.some.inj hd ▸ hdigit, hfree⟩
  have ha : Node.IsExpr (.binder ⟨"a", none⟩) := .name (hletter 'a' rfl rfl (by decide))
  have hb : Node.IsExpr (.binder ⟨"b", none⟩) := .name (hletter 'b' rfl rfl (by decide))
  have hc : Node.IsExpr (.binder ⟨"c", none⟩) := .name (hletter 'c' rfl rfl (by decide))
  have hx : Node.IsExpr (.binder ⟨"x", none⟩) := .name (hletter 'x' rfl rfl (by decide))
  have h : scaledDifference.IsStmt :=
    .cluster (.expr (.binary hx nofun (.binary (.binary ha nofun hb) nofun hc)))
  obtain ⟨front, text, back, -, -, hsource, m, hread, hm⟩ :=
    read_bare [.operand .right ⟨.assign, none⟩ (.binder ⟨"x", none⟩)] .left ⟨.times, none⟩
      ⟨.minus, none⟩ (.binder ⟨"a", none⟩) (.binder ⟨"b", none⟩) (.binder ⟨"c", none⟩) h
  exact ⟨h, front, text, back, hsource, m, hread, hm.mp rfl⟩

end Program

end BasicSyntax
