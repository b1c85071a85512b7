import BasicSyntax.Proofs.Parse.Ahead

/-! # Unambiguity — a greedy derivation is determined by its tokens

    Two greedy derivations of one sort, each with tokens behind it, have the same tokens
    altogether: then they are the same derivation, and the same tokens are behind it.  What is
    behind must not continue the derivation.  For an operand that is what greediness says; for
    a run it must not be an operator, and for a statement not the word `else` either. -/

namespace BasicSyntax.Grammar

theorem Leaf.ext_token {sorts : List Terminal} :
    ∀ {a b : Leaf sorts}, a.token = b.token → a = b
  | ⟨_, _⟩, ⟨_, _⟩, rfl => rfl

/-- A leaf is also of any larger choice of sorts. -/
theorem Leaf.within {sorts sorts' : List Terminal} (a : Leaf sorts) (h : sorts ⊆ sorts') :
    a.token.terminal ∈ sorts' := h a.fits

/-- Leaves of different sorts are different tokens. -/
theorem Leaf.clash {sorts sorts' : List Terminal} {a : Leaf sorts} {b : Leaf sorts'}
    {us us' : List Token} (hd : ∀ k ∈ sorts, k ∉ sorts')
    (h : a.token :: us = b.token :: us') : False :=
  hd _ a.fits ((List.cons.inj h).1 ▸ b.fits)

/-- A leaf and a list of leaves before it are determined, if it is none of them. -/
theorem leaves_unique {sorts stop : List Terminal} (hd : ∀ k ∈ sorts, k ∉ stop) :
    ∀ (ps qs : List (Leaf sorts)) {a b : Leaf stop} {us us' : List Token},
      leafTokens ps ++ a.token :: us = leafTokens qs ++ b.token :: us' →
        ps = qs ∧ a = b ∧ us = us' := by
  intro ps
  induction ps with
  | nil =>
      intro qs a b us us' h
      cases qs with
      | nil =>
          obtain ⟨hab, hus⟩ := List.cons.inj h
          exact ⟨rfl, Leaf.ext_token hab, hus⟩
      | cons q qs => exact (Leaf.clash hd h.symm).elim
  | cons p ps ih =>
      intro qs a b us us' h
      cases qs with
      | nil => exact (Leaf.clash hd h).elim
      | cons q qs =>
          obtain ⟨hpq, hrest⟩ := List.cons.inj h
          obtain ⟨hps, hab, hus⟩ := ih qs hrest
          exact ⟨by rw [Leaf.ext_token hpq, hps], hab, hus⟩

/-- A leaf that may be missing is determined by what follows it, if that is none. -/
theorem option_unique {sorts : List Terminal} {p q : Option (Leaf sorts)}
    {us us' : List Token} (h : optionTokens p ++ us = optionTokens q ++ us')
    (hus : Stops sorts us) (hus' : Stops sorts us') : p = q ∧ us = us' := by
  cases p with
  | none =>
      cases q with
      | none => exact ⟨rfl, h⟩
      | some b =>
          have h' : us = b.token :: us' := h
          rw [h'] at hus
          exact absurd b.fits hus
  | some a =>
      cases q with
      | none =>
          have h' : a.token :: us = us' := h
          rw [← h'] at hus'
          exact absurd a.fits hus'
      | some b =>
          obtain ⟨hab, hrest⟩ := List.cons.inj (show a.token :: us = b.token :: us' from h)
          exact ⟨by rw [Leaf.ext_token hab], hrest⟩

/-! ## First tokens of derivations -/

theorem Primary.first (d : Primary) (us : List Token) :
    ∃ t ts, d.tokens ++ us = t :: ts ∧ t.terminal ∈ Parse.Expected.primary := by
  cases d with
  | group opening expr closing => exact ⟨opening.token, _, rfl, opening.within (by decide)⟩
  | literal token => exact ⟨token.token, _, rfl, token.within (by decide)⟩
  | applied name chain => exact ⟨name.token, _, rfl, name.within (by decide)⟩

theorem Primary.stops_minus (d : Primary) (us : List Token) :
    Stops [.minus] (d.tokens ++ us) := by
  obtain ⟨t, ts, heq, hm⟩ := d.first us
  rw [heq]
  intro ht
  rw [List.mem_singleton.mp ht] at hm
  exact absurd hm (by decide)

/-- What a run begins with. -/
theorem Run.first (d : Run) (us : List Token) :
    ∃ t ts, d.tokens ++ us = t :: ts ∧ t.terminal ∈ Parse.Expected.operand := by
  have build : ∀ (sign : Option (Leaf [.minus])) (p : Primary) (vs : List Token),
      ∃ t ts, optionTokens sign ++ (p.tokens ++ vs) = t :: ts ∧
        t.terminal ∈ Parse.Expected.operand := by
    intro sign p vs
    cases sign with
    | none =>
        obtain ⟨t, ts, heq, hm⟩ := p.first vs
        exact ⟨t, ts, heq, List.mem_cons_of_mem _ hm⟩
    | some minus => exact ⟨minus.token, _, rfl, minus.within (by decide)⟩
  cases d with
  | last sign p =>
      rw [Run.tokens, List.append_assoc]
      exact build sign p us
  | cons sign p op rest =>
      rw [Run.tokens, List.append_assoc, List.append_assoc]
      exact build sign p _

/-- What an expression begins with. -/
theorem Expr.first (d : Expr) {us : List Token} (hg : d.Greedy us) :
    ∃ t ts, d.tokens ++ us = t :: ts ∧ t.terminal ∈ Parse.Expected.expr := by
  have ha : exprAhead (fun _ _ => True) (d.tokens ++ us) := ⟨d, us, rfl, hg, trivial⟩
  cases h : d.tokens ++ us with
  | nil =>
      rw [h, exprAhead_nil] at ha
      exact ha.elim
  | cons t ts =>
      rw [h] at ha
      exact ⟨t, ts, rfl, mem_expr ha⟩

/-- What a cluster begins with. -/
theorem Cluster.first (d : Cluster) {us : List Token} (hg : d.Greedy us) :
    ∃ t ts, d.tokens ++ us = t :: ts ∧ t.terminal ∈ Parse.Expected.cluster := by
  have ha : clusterAhead (fun _ _ => True) (d.tokens ++ us) := ⟨d, us, rfl, hg, trivial⟩
  cases h : d.tokens ++ us with
  | nil =>
      rw [h, clusterAhead_nil] at ha
      exact ha.elim
  | cons t ts =>
      rw [h] at ha
      exact ⟨t, ts, rfl, mem_cluster ha⟩

/-- Sorts of token that a statement begins with. -/
def statementSorts : List Terminal := [.ifWord, .whileWord, .letWord] ++ Parse.Expected.cluster

/-- What a statement begins with. -/
theorem Statement.first (d : Statement) {us : List Token} (hg : d.Greedy us) :
    ∃ t ts, d.tokens ++ us = t :: ts ∧ t.terminal ∈ statementSorts := by
  cases d with
  | choice ifWord condition thenBlock =>
      exact ⟨ifWord.token, _, rfl, ifWord.within (by decide)⟩
  | choiceElse ifWord condition thenBlock elseWord elseBlock =>
      exact ⟨ifWord.token, _, rfl, ifWord.within (by decide)⟩
  | loop whileWord condition body =>
      exact ⟨whileWord.token, _, rfl, whileWord.within (by decide)⟩
  | binding letWord macroWord named params equals codes =>
      exact ⟨letWord.token, _, rfl, letWord.within (by decide)⟩
  | cluster cluster =>
      obtain ⟨t, ts, heq, hm⟩ := cluster.first hg
      exact ⟨t, ts, heq, List.mem_append_right _ hm⟩

/-- Something does not begin with a token that is none of those it begins with. -/
theorem first_clash {sorts sorts' : List Terminal} {ts us : List Token} {a : Leaf sorts'}
    (hf : ∃ t us', ts = t :: us' ∧ t.terminal ∈ sorts) (hd : ∀ k ∈ sorts, k ∉ sorts')
    (h : ts = a.token :: us) : False := by
  obtain ⟨t, us', rfl, hm⟩ := hf
  rw [(List.cons.inj h).1] at hm
  exact hd _ hm a.fits

/-! ## Derivations -/

/-- What must not follow a statement for it to be determined. -/
abbrev behindSorts : List Terminal := .elseWord :: operatorSorts

/-- Less is asked of what comes next. -/
theorem Stops.weaken {sorts sorts' : List Terminal} {ts : List Token} (h : Stops sorts' ts)
    (hs : sorts ⊆ sorts') : Stops sorts ts := by
  cases ts with
  | nil => trivial
  | cons t us => exact fun hm => h (hs hm)

/-- A token of another sort comes next. -/
theorem Leaf.stops {sorts sorts' : List Terminal} (a : Leaf sorts) (us : List Token)
    (hd : ∀ k ∈ sorts, k ∉ sorts') : Stops sorts' (a.token :: us) := hd _ a.fits

/-- The forms of brackets are told apart by the opening one. -/
theorem opener_injective {form form' : Enclosure} (h : form.opener = form'.opener) :
    form = form' := by
  cases form <;> cases form' <;> first | rfl | exact absurd h (by decide)

/-- A statement neither begins with a closing bracket nor with a separator. -/
theorem closer_fresh (form : Enclosure) : ∀ k ∈ statementSorts, k ∉ [form.closer] := by
  cases form <;> decide

/-- An expression does not begin with an opening bracket of statements. -/
theorem opener_fresh (form : Enclosure) : ∀ k ∈ Parse.Expected.expr, k ∉ [form.opener] := by
  cases form <;> decide

theorem closer_stops (form : Enclosure) : ∀ k ∈ [form.closer], k ∉ behindSorts := by
  cases form <;> decide

theorem closer_separator (form : Enclosure) : ∀ k ∈ [form.closer], k ∉ [Terminal.separator] := by
  cases form <;> decide

theorem opener_paren (form : Enclosure) : ∀ k ∈ [form.opener], k ∉ [Terminal.openParen] := by
  cases form <;> decide

theorem opener_word (form : Enclosure) : ∀ k ∈ [form.opener], k ∉ wordSorts := by
  cases form <;> decide

/-- A chain that goes on does not stand where an argument must not. -/
theorem Chain.not_maximal (d : Chain) (hd : d ≠ .done) {us us' : List Token}
    (h : us = d.tokens ++ us') (hm : ChainEnds us) : False := by
  rw [h] at hm
  cases d with
  | done => exact hd rfl
  | group opening expr closing rest => exact hm (opening.within (by decide))
  | enclosed enclosed rest =>
      obtain ⟨form, opening, items, closing⟩ := enclosed
      refine hm (opening.within ?_)
      cases form <;> decide
  | word token rest => exact hm (token.within (by decide))

mutual

/-- A statement is determined by its tokens. -/
theorem Statement.unique : ∀ (d d' : Statement) {us us' : List Token},
    d.tokens ++ us = d'.tokens ++ us' → d.Greedy us → d'.Greedy us' →
      Stops behindSorts us → Stops behindSorts us' → d = d' ∧ us = us'
  | .choice ifWord condition thenBlock, d', us, us', h, hg, hg', hs, hs' => by
      have ho : Stops operatorSorts us := hs.weaken (List.subset_cons_self ..)
      cases d' with
      | choice ifWord' condition' thenBlock' =>
          simp only [Statement.tokens, List.cons_append, List.append_assoc] at h
          obtain ⟨hi, h₁⟩ := List.cons.inj h
          obtain ⟨hc, h₂⟩ := Primary.unique condition condition' h₁ hg.1 hg'.1
          obtain ⟨ht, h₃⟩ := Cluster.unique thenBlock thenBlock' h₂ hg.2 hg'.2 ho
            (hs'.weaken (List.subset_cons_self ..))
          exact ⟨by rw [Leaf.ext_token hi, hc, ht], h₃⟩
      -- here `else` would follow the statement on the left, which is ruled out
      | choiceElse ifWord' condition' thenBlock' elseWord elseBlock =>
          simp only [Statement.tokens, List.cons_append, List.append_assoc] at h
          obtain ⟨-, h₁⟩ := List.cons.inj h
          obtain ⟨-, h₂⟩ := Primary.unique condition condition' h₁ hg.1 hg'.1
          obtain ⟨-, h₃⟩ := Cluster.unique thenBlock thenBlock' h₂ hg.2 hg'.2.1 ho
            (elseWord.stops _ (by decide))
          rw [h₃] at hs
          exact absurd (elseWord.within (by decide)) hs
      | loop whileWord condition' body => exact (Leaf.clash (by decide) h).elim
      | binding letWord macroWord named params equals codes =>
          exact (Leaf.clash (by decide) h).elim
      | cluster cluster => exact (first_clash (cluster.first hg') (by decide) h.symm).elim
  | .choiceElse ifWord condition thenBlock elseWord elseBlock, d', us, us', h, hg, hg', hs,
      hs' => by
      have ho : Stops operatorSorts us' := hs'.weaken (List.subset_cons_self ..)
      cases d' with
      | choice ifWord' condition' thenBlock' =>
          simp only [Statement.tokens, List.cons_append, List.append_assoc] at h
          obtain ⟨-, h₁⟩ := List.cons.inj h
          obtain ⟨-, h₂⟩ := Primary.unique condition condition' h₁ hg.1 hg'.1
          obtain ⟨-, h₃⟩ := Cluster.unique thenBlock thenBlock' h₂ hg.2.1 hg'.2
            (elseWord.stops _ (by decide)) ho
          rw [← h₃] at hs'
          exact absurd (elseWord.within (by decide)) hs'
      | choiceElse ifWord' condition' thenBlock' elseWord' elseBlock' =>
          simp only [Statement.tokens, List.cons_append, List.append_assoc] at h
          obtain ⟨hi, h₁⟩ := List.cons.inj h
          obtain ⟨hc, h₂⟩ := Primary.unique condition condition' h₁ hg.1 hg'.1
          obtain ⟨ht, h₃⟩ := Cluster.unique thenBlock thenBlock' h₂ hg.2.1 hg'.2.1
            (elseWord.stops _ (by decide)) (elseWord'.stops _ (by decide))
          obtain ⟨hw, h₄⟩ := List.cons.inj h₃
          obtain ⟨he, h₅⟩ := Cluster.unique elseBlock elseBlock' h₄ hg.2.2 hg'.2.2
            (hs.weaken (List.subset_cons_self ..)) ho
          exact ⟨by rw [Leaf.ext_token hi, hc, ht, Leaf.ext_token hw, he], h₅⟩
      | loop whileWord condition' body => exact (Leaf.clash (by decide) h).elim
      | binding letWord macroWord named params equals codes =>
          exact (Leaf.clash (by decide) h).elim
      | cluster cluster => exact (first_clash (cluster.first hg') (by decide) h.symm).elim
  | .loop whileWord condition body, d', us, us', h, hg, hg', hs, hs' => by
      cases d' with
      | loop whileWord' condition' body' =>
          simp only [Statement.tokens, List.cons_append, List.append_assoc] at h
          obtain ⟨hw, h₁⟩ := List.cons.inj h
          obtain ⟨hc, h₂⟩ := Primary.unique condition condition' h₁ hg.1 hg'.1
          obtain ⟨hb, h₃⟩ := Cluster.unique body body' h₂ hg.2 hg'.2
            (hs.weaken (List.subset_cons_self ..)) (hs'.weaken (List.subset_cons_self ..))
          exact ⟨by rw [Leaf.ext_token hw, hc, hb], h₃⟩
      | choice ifWord condition' thenBlock => exact (Leaf.clash (by decide) h).elim
      | choiceElse ifWord condition' thenBlock elseWord elseBlock =>
          exact (Leaf.clash (by decide) h).elim
      | binding letWord macroWord named params equals codes =>
          exact (Leaf.clash (by decide) h).elim
      | cluster cluster => exact (first_clash (cluster.first hg') (by decide) h.symm).elim
  | .binding letWord macroWord named params equals codes, d', us, us', h, hg, hg', hs, hs' => by
      cases d' with
      | binding letWord' macroWord' named' params' equals' codes' =>
          simp only [Statement.tokens, List.cons_append, List.append_assoc] at h
          obtain ⟨hl, h₁⟩ := List.cons.inj h
          obtain ⟨hm, h₂⟩ := option_unique h₁ (named.stops _ (by decide))
            (named'.stops _ (by decide))
          obtain ⟨hn, h₃⟩ := List.cons.inj h₂
          obtain ⟨hp, he, h₄⟩ := leaves_unique (by decide) params params' h₃
          obtain ⟨hc, h₅⟩ := Cluster.unique codes codes' h₄ hg hg'
            (hs.weaken (List.subset_cons_self ..)) (hs'.weaken (List.subset_cons_self ..))
          exact ⟨by rw [Leaf.ext_token hl, hm, Leaf.ext_token hn, hp, he, hc], h₅⟩
      | choice ifWord condition thenBlock => exact (Leaf.clash (by decide) h).elim
      | choiceElse ifWord condition thenBlock elseWord elseBlock =>
          exact (Leaf.clash (by decide) h).elim
      | loop whileWord condition body => exact (Leaf.clash (by decide) h).elim
      | cluster cluster => exact (first_clash (cluster.first hg') (by decide) h.symm).elim
  | .cluster cluster, d', us, us', h, hg, hg', hs, hs' => by
      cases d' with
      | cluster cluster' =>
          obtain ⟨hc, h₁⟩ := Cluster.unique cluster cluster' h hg hg'
            (hs.weaken (List.subset_cons_self ..)) (hs'.weaken (List.subset_cons_self ..))
          exact ⟨by rw [hc], h₁⟩
      | choice ifWord condition thenBlock =>
          exact (first_clash (cluster.first hg) (by decide) h).elim
      | choiceElse ifWord condition thenBlock elseWord elseBlock =>
          exact (first_clash (cluster.first hg) (by decide) h).elim
      | loop whileWord condition body =>
          exact (first_clash (cluster.first hg) (by decide) h).elim
      | binding letWord macroWord named params equals codes =>
          exact (first_clash (cluster.first hg) (by decide) h).elim

/-- A cluster is determined by its tokens. -/
theorem Cluster.unique : ∀ (d d' : Cluster) {us us' : List Token},
    d.tokens ++ us = d'.tokens ++ us' → d.Greedy us → d'.Greedy us' →
      Stops operatorSorts us → Stops operatorSorts us' → d = d' ∧ us = us'
  | .expr expr, d', us, us', h, hg, hg', hs, hs' => by
      cases d' with
      | expr expr' =>
          obtain ⟨he, h₁⟩ := Expr.unique expr expr' h hg hg' hs hs'
          exact ⟨by rw [he], h₁⟩
      | enclosed enclosed =>
          obtain ⟨form, opening, items, closing⟩ := enclosed
          exact (first_clash (expr.first hg) (opener_fresh form) h).elim
  | .enclosed enclosed, d', us, us', h, hg, hg', hs, hs' => by
      cases d' with
      | expr expr =>
          obtain ⟨form, opening, items, closing⟩ := enclosed
          exact (first_clash (expr.first hg') (opener_fresh form) h.symm).elim
      | enclosed enclosed' =>
          obtain ⟨he, h₁⟩ := Enclosed.unique enclosed enclosed' h hg hg'
          exact ⟨by rw [he], h₁⟩

/-- Statements between brackets are determined by their tokens. -/
theorem Enclosed.unique : ∀ (d d' : Enclosed) {us us' : List Token},
    d.tokens ++ us = d'.tokens ++ us' → d.Greedy us → d'.Greedy us' → d = d' ∧ us = us'
  | .make form opening items closing, .make form' opening' items' closing', us, us', h, hg,
      hg' => by
      simp only [Enclosed.tokens, List.cons_append, List.append_assoc, List.nil_append] at h
      obtain ⟨ho, h₁⟩ := List.cons.inj h
      have hf : form = form' := by
        apply opener_injective
        rw [← List.mem_singleton.mp opening.fits, ho, List.mem_singleton.mp opening'.fits]
      subst hf
      obtain ⟨hi, hc, h₂⟩ := Items.unique items items' h₁ hg hg'
      exact ⟨by rw [Leaf.ext_token ho, hi, hc], h₂⟩

/-- What stands between brackets is determined by its tokens and the closing one. -/
theorem Items.unique : ∀ (d d' : Items) {form : Enclosure}
    {closing closing' : Leaf [form.closer]} {us us' : List Token},
    d.tokens ++ closing.token :: us = d'.tokens ++ closing'.token :: us' →
      d.Greedy (closing.token :: us) → d'.Greedy (closing'.token :: us') →
        d = d' ∧ closing = closing' ∧ us = us'
  | .empty, d', form, closing, closing', us, us', h, hg, hg' => by
      cases d' with
      | empty =>
          obtain ⟨hc, h₁⟩ := List.cons.inj h
          exact ⟨rfl, Leaf.ext_token hc, h₁⟩
      | last statement =>
          exact (first_clash (statement.first hg') (closer_fresh form) h.symm).elim
      | skip separator rest => exact (Leaf.clash (closer_separator form) h).elim
      | cons statement separator rest =>
          simp only [Items.tokens, List.append_assoc, List.cons_append] at h
          exact (first_clash (statement.first hg'.1) (closer_fresh form) h.symm).elim
  | .last statement, d', form, closing, closing', us, us', h, hg, hg' => by
      have hs := closing.stops us (closer_stops form)
      cases d' with
      | empty => exact (first_clash (statement.first hg) (closer_fresh form) h).elim
      | last statement' =>
          obtain ⟨hd, h₁⟩ := Statement.unique statement statement' h hg hg' hs
            (closing'.stops us' (closer_stops form))
          obtain ⟨hc, h₂⟩ := List.cons.inj h₁
          exact ⟨by rw [hd], Leaf.ext_token hc, h₂⟩
      | skip separator rest => exact (first_clash (statement.first hg) (by decide) h).elim
      | cons statement' separator rest =>
          simp only [Items.tokens, List.append_assoc, List.cons_append] at h
          obtain ⟨-, h₁⟩ := Statement.unique statement statement' h hg hg'.1 hs
            (separator.stops _ (by decide))
          -- the statements are the same, and then a bracket closes in one and a separator
          -- follows in the other
          exact (Leaf.clash (closer_separator form) h₁).elim
  | .skip separator rest, d', form, closing, closing', us, us', h, hg, hg' => by
      cases d' with
      | empty => exact (Leaf.clash (closer_separator form) h.symm).elim
      | last statement => exact (first_clash (statement.first hg') (by decide) h.symm).elim
      | skip separator' rest' =>
          obtain ⟨hs, h₁⟩ := List.cons.inj h
          obtain ⟨hr, h₂⟩ := Items.unique rest rest' h₁ hg hg'
          exact ⟨by rw [Leaf.ext_token hs, hr], h₂⟩
      | cons statement separator' rest' =>
          simp only [Items.tokens, List.append_assoc, List.cons_append] at h
          exact (first_clash (statement.first hg'.1) (by decide) h.symm).elim
  | .cons statement separator rest, d', form, closing, closing', us, us', h, hg, hg' => by
      have hs : Stops behindSorts (separator.token :: (rest.tokens ++ closing.token :: us)) :=
        separator.stops _ (by decide)
      simp only [Items.tokens, List.append_assoc, List.cons_append] at h
      cases d' with
      | empty => exact (first_clash (statement.first hg.1) (closer_fresh form) h).elim
      | last statement' =>
          obtain ⟨-, h₁⟩ := Statement.unique statement statement' h hg.1 hg' hs
            (closing'.stops us' (closer_stops form))
          exact (Leaf.clash (closer_separator form) h₁.symm).elim
      | skip separator' rest' => exact (first_clash (statement.first hg.1) (by decide) h).elim
      | cons statement' separator' rest' =>
          simp only [Items.tokens, List.append_assoc, List.cons_append] at h
          obtain ⟨hd, h₁⟩ := Statement.unique statement statement' h hg.1 hg'.1 hs
            (separator'.stops _ (by decide))
          obtain ⟨hw, h₂⟩ := List.cons.inj h₁
          obtain ⟨hr, h₃⟩ := Items.unique rest rest' h₂ hg.2 hg'.2
          exact ⟨by rw [hd, Leaf.ext_token hw, hr], h₃⟩

/-- An expression is determined by its tokens. -/
theorem Expr.unique : ∀ (d d' : Expr) {us us' : List Token},
    d.tokens ++ us = d'.tokens ++ us' → d.Greedy us → d'.Greedy us' →
      Stops operatorSorts us → Stops operatorSorts us' → d = d' ∧ us = us'
  | .run run, d', us, us', h, hg, hg', hs, hs' => by
      cases d' with
      | run run' =>
          obtain ⟨hr, h₁⟩ := Run.unique run run' h hg hg' hs hs'
          exact ⟨by rw [hr], h₁⟩
      | function funWord param params arrow body =>
          exact (first_clash (run.first us) (by decide) h).elim
  | .function funWord param params arrow body, d', us, us', h, hg, hg', hs, hs' => by
      cases d' with
      | run run => exact (first_clash (run.first us') (by decide) h.symm).elim
      | function funWord' param' params' arrow' body' =>
          simp only [Expr.tokens, List.cons_append, List.append_assoc] at h
          obtain ⟨hf, h₁⟩ := List.cons.inj h
          obtain ⟨hp, h₂⟩ := List.cons.inj h₁
          obtain ⟨hps, ha, h₃⟩ := leaves_unique (by decide) params params' h₂
          obtain ⟨hb, h₄⟩ := Cluster.unique body body' h₃ hg hg' hs hs'
          exact ⟨by rw [Leaf.ext_token hf, Leaf.ext_token hp, hps, ha, hb], h₄⟩

/-- A run is determined by its tokens. -/
theorem Run.unique : ∀ (d d' : Run) {us us' : List Token},
    d.tokens ++ us = d'.tokens ++ us' → d.Greedy us → d'.Greedy us' →
      Stops operatorSorts us → Stops operatorSorts us' → d = d' ∧ us = us'
  | .last sign primary, d', us, us', h, hg, hg', hs, hs' => by
      cases d' with
      | last sign' primary' =>
          simp only [Run.tokens, List.append_assoc] at h
          obtain ⟨hm, h₁⟩ := option_unique h (primary.stops_minus _) (primary'.stops_minus _)
          obtain ⟨hp, h₂⟩ := Primary.unique primary primary' h₁ hg hg'
          exact ⟨by rw [hm, hp], h₂⟩
      | cons sign' primary' op rest =>
          simp only [Run.tokens, List.append_assoc] at h
          obtain ⟨-, h₁⟩ := option_unique h (primary.stops_minus _) (primary'.stops_minus _)
          obtain ⟨-, h₂⟩ := Primary.unique primary primary' h₁ hg hg'.1
          -- here an operator would follow the run on the left
          rw [h₂] at hs
          exact absurd op.fits hs
  | .cons sign primary op rest, d', us, us', h, hg, hg', hs, hs' => by
      cases d' with
      | last sign' primary' =>
          simp only [Run.tokens, List.append_assoc] at h
          obtain ⟨-, h₁⟩ := option_unique h (primary.stops_minus _) (primary'.stops_minus _)
          obtain ⟨-, h₂⟩ := Primary.unique primary primary' h₁ hg.1 hg'
          rw [← h₂] at hs'
          exact absurd op.fits hs'
      | cons sign' primary' op' rest' =>
          simp only [Run.tokens, List.append_assoc] at h
          obtain ⟨hm, h₁⟩ := option_unique h (primary.stops_minus _) (primary'.stops_minus _)
          obtain ⟨hp, h₂⟩ := Primary.unique primary primary' h₁ hg.1 hg'.1
          obtain ⟨ho, h₃⟩ := List.cons.inj h₂
          obtain ⟨hr, h₄⟩ := Run.unique rest rest' h₃ hg.2 hg'.2 hs hs'
          exact ⟨by rw [hm, hp, Leaf.ext_token ho, hr], h₄⟩

/-- An operand is determined by its tokens. -/
theorem Primary.unique : ∀ (d d' : Primary) {us us' : List Token},
    d.tokens ++ us = d'.tokens ++ us' → d.Greedy us → d'.Greedy us' → d = d' ∧ us = us'
  | .group opening expr closing, d', us, us', h, hg, hg' => by
      cases d' with
      | group opening' expr' closing' =>
          simp only [Primary.tokens, List.cons_append, List.append_assoc, List.nil_append] at h
          obtain ⟨ho, h₁⟩ := List.cons.inj h
          obtain ⟨he, h₂⟩ := Expr.unique expr expr' h₁ hg hg' (closing.stops _ (by decide))
            (closing'.stops _ (by decide))
          obtain ⟨hc, h₃⟩ := List.cons.inj h₂
          exact ⟨by rw [Leaf.ext_token ho, he, Leaf.ext_token hc], h₃⟩
      | literal token => exact (Leaf.clash (by decide) h).elim
      | applied name chain => exact (Leaf.clash (by decide) h).elim
  | .literal token, d', us, us', h, hg, hg' => by
      cases d' with
      | group opening expr closing => exact (Leaf.clash (by decide) h).elim
      | literal token' =>
          obtain ⟨ht, h₁⟩ := List.cons.inj h
          exact ⟨by rw [Leaf.ext_token ht], h₁⟩
      | applied name chain => exact (Leaf.clash (by decide) h).elim
  | .applied name chain, d', us, us', h, hg, hg' => by
      cases d' with
      | group opening expr closing => exact (Leaf.clash (by decide) h).elim
      | literal token => exact (Leaf.clash (by decide) h).elim
      | applied name' chain' =>
          obtain ⟨hn, h₁⟩ := List.cons.inj h
          obtain ⟨hc, h₂⟩ := Chain.unique chain chain' h₁ hg hg'
          exact ⟨by rw [Leaf.ext_token hn, hc], h₂⟩

/-- A chain is determined by its tokens. -/
theorem Chain.unique : ∀ (d d' : Chain) {us us' : List Token},
    d.tokens ++ us = d'.tokens ++ us' → d.Greedy us → d'.Greedy us' → d = d' ∧ us = us'
  | .done, d', us, us', h, hg, hg' => by
      cases d' with
      -- a chain that ends here is greedy, so no other goes on
      | done => exact ⟨rfl, h⟩
      | group opening expr closing rest => exact (Chain.not_maximal (.group ..) nofun h hg).elim
      | enclosed enclosed rest => exact (Chain.not_maximal (.enclosed ..) nofun h hg).elim
      | word token rest => exact (Chain.not_maximal (.word ..) nofun h hg).elim
  | .group opening expr closing rest, d', us, us', h, hg, hg' => by
      cases d' with
      | done => exact (Chain.not_maximal (.group ..) nofun h.symm hg').elim
      | group opening' expr' closing' rest' =>
          simp only [Chain.tokens, List.cons_append, List.append_assoc] at h
          obtain ⟨ho, h₁⟩ := List.cons.inj h
          obtain ⟨he, h₂⟩ := Expr.unique expr expr' h₁ hg.1 hg'.1 (closing.stops _ (by decide))
            (closing'.stops _ (by decide))
          obtain ⟨hc, h₃⟩ := List.cons.inj h₂
          obtain ⟨hr, h₄⟩ := Chain.unique rest rest' h₃ hg.2 hg'.2
          exact ⟨by rw [Leaf.ext_token ho, he, Leaf.ext_token hc, hr], h₄⟩
      | enclosed enclosed rest' =>
          obtain ⟨form, opening', items, closing'⟩ := enclosed
          exact (Leaf.clash (opener_paren form) h.symm).elim
      | word token rest' => exact (Leaf.clash (by decide) h).elim
  | .enclosed enclosed rest, d', us, us', h, hg, hg' => by
      cases d' with
      | done => exact (Chain.not_maximal (.enclosed ..) nofun h.symm hg').elim
      | group opening expr closing rest' =>
          obtain ⟨form, opening', items, closing'⟩ := enclosed
          exact (Leaf.clash (opener_paren form) h).elim
      | enclosed enclosed' rest' =>
          simp only [Chain.tokens, List.append_assoc] at h
          obtain ⟨he, h₁⟩ := Enclosed.unique enclosed enclosed' h hg.1 hg'.1
          obtain ⟨hr, h₂⟩ := Chain.unique rest rest' h₁ hg.2 hg'.2
          exact ⟨by rw [he, hr], h₂⟩
      | word token rest' =>
          obtain ⟨form, opening', items, closing'⟩ := enclosed
          exact (Leaf.clash (opener_word form) h).elim
  | .word token rest, d', us, us', h, hg, hg' => by
      cases d' with
      | done => exact (Chain.not_maximal (.word ..) nofun h.symm hg').elim
      | group opening expr closing rest' => exact (Leaf.clash (by decide) h).elim
      | enclosed enclosed rest' =>
          obtain ⟨form, opening, items, closing⟩ := enclosed
          exact (Leaf.clash (opener_word form) h.symm).elim
      | word token' rest' =>
          obtain ⟨ht, h₁⟩ := List.cons.inj h
          obtain ⟨hr, h₂⟩ := Chain.unique rest rest' h₁ hg hg'
          exact ⟨by rw [Leaf.ext_token ht, hr], h₂⟩

end

/-- A line is determined by its tokens, whatever is behind it. -/
theorem Line.unique : ∀ (d d' : Line) {us us' : List Token},
    d.tokens ++ us = d'.tokens ++ us' → d.Greedy us → d'.Greedy us' → d = d' ∧ us = us' := by
  rintro ⟨statement, separator⟩ ⟨statement', separator'⟩ us us' h hg hg'
  cases statement with
  | none =>
      cases statement' with
      | none =>
          obtain ⟨hs, h₁⟩ := List.cons.inj h
          have hl : separator = separator' := Leaf.ext_token hs
          exact ⟨by rw [hl], h₁⟩
      | some s' =>
          simp only [Line.tokens, List.append_assoc, List.singleton_append] at h
          exact (first_clash (s'.first (hg' s' rfl)) (by decide) h.symm).elim
  | some s =>
      simp only [Line.tokens, List.append_assoc, List.singleton_append] at h
      cases statement' with
      | none => exact (first_clash (s.first (hg s rfl)) (by decide) h).elim
      | some s' =>
          simp only [List.append_assoc, List.singleton_append] at h
          obtain ⟨hs, h₁⟩ := Statement.unique s s' h (hg s rfl) (hg' s' rfl)
            (separator.stops _ (by decide)) (separator'.stops _ (by decide))
          obtain ⟨hw, h₂⟩ := List.cons.inj h₁
          exact ⟨by rw [hs, Leaf.ext_token hw], h₂⟩

theorem Line.tokens_ne_nil (d : Line) : d.tokens ≠ [] := by
  obtain ⟨statement, separator⟩ := d
  cases statement with
  | none => exact List.cons_ne_nil _ _
  | some s => exact List.append_ne_nil_of_right_ne_nil _ (List.cons_ne_nil _ _)

/-- **UNAMBIGUITY**: a greedy derivation of a program is determined by its tokens. -/
theorem Derivation.unique : ∀ d d' : Derivation,
    d.tokens = d'.tokens → d.Greedy → d'.Greedy → d = d' := by
  intro d
  induction d with
  | nil =>
      intro d' h hg hg'
      cases d' with
      | nil => rfl
      | cons line rest =>
          exact absurd (List.append_eq_nil_iff.mp h.symm).1 line.tokens_ne_nil
  | cons line rest ih =>
      intro d' h hg hg'
      cases d' with
      | nil => exact absurd (List.append_eq_nil_iff.mp h).1 line.tokens_ne_nil
      | cons line' rest' =>
          obtain ⟨hl, hr⟩ := Line.unique line line' h hg.1 hg'.1
          rw [hl, ih rest' hr hg.2 hg'.2]

end BasicSyntax.Grammar
