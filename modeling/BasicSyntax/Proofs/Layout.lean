import BasicSyntax.Proofs.Agreement
import BasicSyntax.Proofs.Composition
import BasicSyntax.Proofs.Token.Layout

/-! # Layout — a program is the same however it is laid out

    Filler may be put before any token of a program, and any of its separators may be replaced by
    the other one.  The new text has the same tokens but for the texts of separators
    (`Scan.laidOut`), of which the reader builds nothing.  So reading the two side by side builds
    trees that agree (`relaidLikeness`), wherever in them the separators and the tokens stand.

    The newline that completes a text belongs to neither: it is supplied to both texts or to
    neither of them (`Program.complete_laidOut`). -/

namespace BasicSyntax

/-! ## Reading side by side -/

namespace Token.Relaid

variable {t t' : Token}

theorem binder (h : t.Relaid t') (hk : t.terminal = .identifier) :
    (Parse.binderOf t).text = (Parse.binderOf t').text :=
  (h.text (by rw [hk]; decide)).symm

theorem operator (h : t.Relaid t') (hk : t.terminal = .operator ∨ t.terminal = .minus) :
    (Parse.operatorOf t).symbol = (Parse.operatorOf t').symbol := by
  rw [Parse.operatorOf, Parse.operatorOf, h.text (by rcases hk with hk | hk <;> rw [hk] <;> decide)]

theorem literal (h : t.Relaid t') (hk : t.terminal = .number ∨ t.terminal = .string) :
    (Parse.literalOf t).agrees (Parse.literalOf t') = true := by
  have htext := h.text (by rcases hk with hk | hk <;> rw [hk] <;> decide)
  rw [Parse.literalOf, Parse.literalOf, htext, h.terminal]
  split
  · exact Node.agrees_number _ _ _
  · exact Node.agrees_string _ _ _

end Token.Relaid

/-- Nodes that agree one by one agree as lists. -/
theorem Node.allAgree_each {ns ns' : List Node}
    (h : List.Forall₂ (fun n n' : Node => n.agrees n' = true) ns ns') :
    Node.allAgree ns ns' = true := by
  induction h with
  | nil => exact Node.agrees_nodes_nil
  | cons hn _ ih => exact Node.agrees_nodes_cons hn ih

/-- Names with the same texts one by one have the same texts. -/
theorem Binder.texts_each {bs bs' : List Binder}
    (h : List.Forall₂ (fun b b' : Binder => b.text = b'.text) bs bs') :
    bs.map Binder.text = bs'.map Binder.text := by
  induction h with
  | nil => rfl
  | cons hb _ ih => rw [List.map_cons, List.map_cons, hb, ih]

/-- Tokens of two layouts, and trees that agree. -/
def relaidLikeness : Likeness where
  token := Token.Relaid
  place _ _ := True
  binder b b' := b.text = b'.text
  operator o o' := o.symbol = o'.symbol
  node n n' := n.agrees n' = true
  lines ns ns' := List.Forall₂ (fun n n' : Node => n.agrees n' = true) ns ns'
  terminal_eq h := h.terminal.symm
  token_place _ _ := trivial
  token_binder := Token.Relaid.binder
  token_operator := Token.Relaid.operator
  token_literal := Token.Relaid.literal
  token_underline _ _ := Node.agrees_underline _ _
  null := Node.agrees_null
  name := Node.agrees_binder
  negative := Node.agrees_negative
  run hbefore hn := Parse.runOf_rel (R := fun n n' : Node => n.agrees n' = true)
    (O := fun o o' => o.symbol = o'.symbol) id Node.agrees_binary hbefore hn
  application hb hns := Node.agrees_application (Node.agrees_binder hb) (Node.allAgree_each hns)
  enclosed form hns := Node.agrees_enclosed form (Node.allAgree_each hns)
  function _ hbs hn := Node.agrees_function _ _ (Binder.texts_each hbs) hn
  conditional := Node.agrees_conditional
  conditionalElse := Node.agrees_conditionalElse
  loop := Node.agrees_loop
  binding := by
    intro b b' bs bs' n n' form hb hbs hn
    refine Node.agrees_binding form hb ?_ hn
    cases hbs with
    | nil => rfl
    | cons hb hbs =>
        rw [Parse.paramsOf, Parse.paramsOf, Option.map_some, Option.map_some, List.map_reverse,
          List.map_reverse, Binder.texts_each (.cons hb hbs)]
        · exact nofun
        · exact nofun
  lines_cons hn hns := .cons hn hns

namespace Program

/-- Texts that are cut alike are programs alike. -/
theorem statements_relaid {text text' : List Char} (hs : (Tokens.ofText text').stray = none)
    (htokens : List.Forall₂ Token.Relaid (Tokens.ofText text).tokens (Tokens.ofText text').tokens)
    {stmts : List Node} (hstmts : statements text = .ok stmts) :
    ∃ stmts', statements text' = .ok stmts' ∧ Node.allAgree stmts stmts' = true := by
  obtain ⟨-, hr⟩ := statements_reached hstmts
  have hlines : relaidLikeness.lines [] [] := List.Forall₂.nil
  have halike : Parse.RunAlike relaidLikeness (Parse.run .start (Tokens.ofText text).tokens)
      (Parse.run .start (Tokens.ofText text').tokens) :=
    Parse.run_alike htokens (.stmt (.line hlines))
  rw [hr] at halike
  obtain ⟨reached, hrun, hreached⟩ := halike.ok
  cases hreached with
  | stmt hc =>
      cases hc with
      | line hlines =>
          refine ⟨_, statements_done hrun hs rfl, Node.allAgree_each ?_⟩
          rw [← List.forall₂_reverse_iff, List.reverse_reverse]
          exact hlines

/-- No number is longer than before. -/
theorem longNumber?_relaid {ts ts' : List Token} (h : List.Forall₂ Token.Relaid ts ts')
    (hts : longNumber? ts = none) : longNumber? ts' = none := by
  refine longNumber?_none ?_
  have hshort := longNumber?_short hts
  clear hts
  induction h with
  | nil => exact nofun
  | @cons t t' ts ts' ht _ ih =>
      obtain ⟨htext, hmore⟩ := List.forall_mem_cons.mp hshort
      refine List.forall_mem_cons.mpr ⟨fun hk => ?_, ih hmore⟩
      rw [ht.terminal] at hk
      rw [ht.text (by rw [hk]; decide)]
      exact htext hk

/-- **LAYOUT** does not matter: a program with filler put before any of its tokens, and with the
    other separator in the place of any of its separators, is a program too, and trees are read
    that agree with the ones before. -/
theorem read_layout (l : Layout) (source : String) (stmts : List Node)
    (h : read source = .ok stmts) :
    ∃ stmts', read (l.source source) = .ok stmts' ∧ Node.allAgree stmts stmts' = true := by
  obtain ⟨hstmts, hshort⟩ := (read_ok_iff source stmts).mp h
  have hs := (statements_reached hstmts).1
  obtain ⟨later, hlater⟩ := tokens_complete hs
  obtain ⟨ts', hscan, halike⟩ := (scan_ofText _).laidOut l hs hlater 0 .start
  rw [← complete_laidOut, ← String.toList_ofList (l := l.apply ..)] at hscan
  have hcut : Tokens.ofText (complete (l.source source).toList) = ⟨ts', none⟩ :=
    (scan_iff ..).mp hscan
  have hs' : (Tokens.ofText (complete (l.source source).toList)).stray = none := by rw [hcut]
  rw [← show _ = ts' from congrArg Tokens.tokens hcut] at halike
  obtain ⟨stmts', hread, hagree⟩ := statements_relaid hs' halike hstmts
  refine ⟨stmts', (read_ok_iff _ _).mpr ⟨hread, ?_⟩, hagree⟩
  exact longNumber?_relaid halike hshort

/-- A tab before every token, and every separator replaced. -/
def tabbed : Layout where
  gap _ := ['\t']
  gap_filler _ := List.forall_mem_singleton.mpr rfl
  exchanged _ := true

/-- A block as an argument, with a separator in it that is a token and one that is in a text. -/
theorem read_layout_block :
    let source := "f \x7bx;\";\"\x7d\n"
    tabbed.source source = "\tf \t\x7b\tx\t\n\t\";\"\t\x7d\t;" ∧
    ∃ stmts stmts', read source = .ok stmts ∧ read (tabbed.source source) = .ok stmts' ∧
      Node.allAgree stmts stmts' = true := by
  intro source
  obtain ⟨stmts, hread⟩ := read_isOk (show (read source).isOk = true by decide +kernel)
  obtain ⟨stmts', hstmts', hagree⟩ := read_layout tabbed source stmts hread
  exact ⟨by decide +kernel, stmts, stmts', hread, hstmts', hagree⟩

end Program

end BasicSyntax
