import ConfigIndex.Proofs.Document.Soundness

/-!
What derives from the grammar of documents is accepted, with the items of its derivation.
-/

namespace ConfigIndex.Document

theorem run_step {stage next : Stage} {lexeme : Lexeme} {rest : List Lexeme}
    (stepped : stage.step lexeme = .ok next) : stage.run (lexeme :: rest) = next.run rest := by
  simp only [Stage.run, stepped]

theorem key?_shows {lexeme : Lexeme} {token : Token} (read : lexeme.key? = some token) :
    lexeme.terminal ∈ [.ident, .string] ∧ token.text = lexeme.text ∧
      token.position = lexeme.position := by
  unfold Lexeme.key? at read
  split at read
  · rename_i same
    cases read
    exact ⟨by simp [same], rfl, rfl⟩
  · rename_i same
    cases read
    exact ⟨by simp [same], rfl, rfl⟩
  · cases read

theorem numeralKind_ne {kind : TokenKind} (other : kind ∉ [.float, .number]) (text : List Char) :
    numeralKind text ≠ kind := by
  have either : ∀ fractional : Bool,
      (if fractional then TokenKind.float else TokenKind.number) ∈ [.float, .number] := by decide
  intro same
  exact other (same ▸ either _)

theorem literal?_shows {lexeme : Lexeme} {token : Token} (read : lexeme.literal? = some token) :
    lexeme.terminal ∈ [.ident, .string, .heredoc, .number] ∧ token.text = lexeme.text ∧
      token.position = lexeme.position := by
  unfold Lexeme.literal? at read
  split at read
  · rename_i same
    cases read
    exact ⟨by simp [same], rfl, rfl⟩
  · rename_i same
    cases read
    exact ⟨by simp [same], rfl, rfl⟩
  · rename_i same
    cases read
    exact ⟨by simp [same], rfl, rfl⟩
  · rename_i same
    cases read
    exact ⟨by simp [same], rfl, rfl⟩
  · cases read

theorem key?_none {lexeme : Lexeme} (mark : lexeme.terminal ∉ [.ident, .string]) :
    lexeme.key? = none := by
  cases read : lexeme.key? with
  | none => rfl
  | some token => exact absurd (key?_shows read).1 mark

theorem literal?_none {lexeme : Lexeme}
    (mark : lexeme.terminal ∉ [.ident, .string, .heredoc, .number]) : lexeme.literal? = none := by
  cases read : lexeme.literal? with
  | none => rfl
  | some token => exact absurd (literal?_shows read).1 mark

inductive Awaits : Stage → Site → Prop
  | value {site} : Awaits (.value site) site
  | element {outer opening before} :
      Awaits (.element outer opening before) (.element outer opening before)

theorem Awaits.step {stage : Stage} {site : Site} (awaits : Awaits stage site) (lexeme : Lexeme)
    (other : lexeme.terminal ≠ .closeBracket) :
    ∃ expected, stage.step lexeme = stepValue site expected lexeme := by
  cases awaits with
  | value => exact ⟨_, rfl⟩
  | element => exact ⟨.element, by simp only [Stage.step, if_neg other]⟩

def Stage.Opens (stage : Stage) (site : Site) : Prop :=
  ∀ lexeme : Lexeme, lexeme.terminal = .openBrace →
    stage.step lexeme = .ok (.item (.object site lexeme.position []) .brace)

theorem Awaits.opens {stage : Stage} {site : Site} (awaits : Awaits stage site) :
    stage.Opens site := by
  intro lexeme brace
  obtain ⟨expected, stepped⟩ := awaits.step lexeme (by simp [brace])
  rw [stepped, stepValue, literal?_none (by simp [brace]), brace]

theorem opens_keys (body : Body) (key : Token) (before : List Token) :
    (Stage.keys body key before).Opens (.value body (key :: before).reverse none) := by
  intro lexeme brace
  simp only [Stage.step, stepKeys, key?_none (show lexeme.terminal ∉ _ by simp [brace]), brace]

def Body.addAll (body : Body) (items : List Item) : Body :=
  items.foldl (fun body item => body.add item) body

theorem addAll_document (before items : List Item) :
    (Body.document before).addAll items = .document (items.reverse ++ before) := by
  induction items generalizing before with
  | nil => rfl
  | cons item items ih =>
      have rest := ih (item :: before)
      simpa [Body.addAll, Body.add] using rest

theorem addAll_object (outer : Site) (opening : Position) (before items : List Item) :
    (Body.object outer opening before).addAll items =
      .object outer opening (items.reverse ++ before) := by
  induction items generalizing before with
  | nil => rfl
  | cons item items ih =>
      have rest := ih (item :: before)
      simpa [Body.addAll, Body.add] using rest

/-- How the parser runs over a phrase, wherever that phrase may stand. A list ends at its bracket,
as the parser does not tell before it whether more elements follow. -/
def Phrase.Runs (start stop : List Lexeme) : Phrase → Prop
  | .items all => ∀ body last, ∃ final, (last ≠ .nothing → final ≠ .nothing) ∧
      (Stage.item body last).run start = (Stage.item (body.addAll all) final).run stop
  | .item one => ∀ body last,
      (Stage.item body last).run start = (Stage.item (body.add one) .value).run stop
  | .keys tokens => ∀ body last, ∃ key before, (key :: before).reverse = tokens ∧
      (Stage.item body last).run start = (Stage.keys body key before).run stop
  | .object node => ∀ (site : Site) (stage : Stage), stage.Opens site →
      stage.run start = (site.fill node).run stop
  | .value node => ∀ (site : Site) (stage : Stage), Awaits stage site →
      stage.run start = (site.fill node).run stop
  | .elements nodes => ∀ outer opening before closing rest, closing.terminal = .closeBracket →
      stop = closing :: rest → (Stage.element outer opening before).run start =
        (outer.fill (.list opening closing.position (before.reverse ++ nodes))).run rest

theorem step_key {body : Body} {last : Last} {lexeme : Lexeme} {token : Token}
    (read : lexeme.key? = some token) :
    (Stage.item body last).step lexeme = .ok (.keys body token []) := by
  simp only [Stage.step, stepItem, read]

theorem step_nextKey {body : Body} {key token : Token} {before : List Token} {lexeme : Lexeme}
    (read : lexeme.key? = some token) :
    (Stage.keys body key before).step lexeme = .ok (.keys body token (key :: before)) := by
  simp only [Stage.step, stepKeys, read]

theorem step_equal {body : Body} {key : Token} {lexeme : Lexeme}
    (equal : lexeme.terminal = .equal) :
    (Stage.keys body key []).step lexeme =
      .ok (.value (.value body [key] (some lexeme.position))) := by
  simp only [Stage.step, stepKeys, key?_none (show lexeme.terminal ∉ _ by simp [equal]), equal]

theorem step_comma {body : Body} {lexeme : Lexeme} (comma : lexeme.terminal = .comma) :
    (Stage.item body .value).step lexeme = .ok (.item body .comma) := by
  simp only [Stage.step, stepItem, key?_none (show lexeme.terminal ∉ _ by simp [comma]), comma]

theorem step_closeBrace {outer : Site} {opening : Position} {before : List Item} {last : Last}
    {lexeme : Lexeme} (brace : lexeme.terminal = .closeBrace) (some : last ≠ .nothing) :
    (Stage.item (.object outer opening before) last).step lexeme =
      .ok (outer.fill (.object opening lexeme.position before.reverse)) := by
  simp only [Stage.step, stepItem, key?_none (show lexeme.terminal ∉ _ by simp [brace]), brace]

theorem runs_literal {lexeme : Lexeme} {token : Token} {rest : List Lexeme}
    (read : lexeme.literal? = some token) :
    (Phrase.value (.literal token)).Runs (lexeme :: rest) rest := by
  intro site stage awaits
  have other : lexeme.terminal ≠ .closeBracket := by
    intro same
    simp [literal?_none (show lexeme.terminal ∉ _ by simp [same])] at read
  obtain ⟨expected, stepped⟩ := awaits.step lexeme other
  exact run_step (by simp only [stepped, stepValue, read])

section

variable {opening closing : Lexeme} {start middle stop : List Lexeme}

theorem Phrase.Runs.object {items : List Item}
    (inside : (Phrase.items items).Runs middle (closing :: stop))
    (opens : opening.terminal = .openBrace) (closes : closing.terminal = .closeBrace) :
    (Phrase.object (.object opening.position closing.position items)).Runs
      (opening :: middle) stop := by
  intro site stage awaits
  obtain ⟨final, kept, runs⟩ := inside (.object site opening.position []) .brace
  rw [run_step (awaits _ opens), runs, addAll_object,
    run_step (step_closeBrace closes (kept (by decide)))]
  simp

theorem Phrase.Runs.list {nodes : List Node}
    (inside : (Phrase.elements nodes).Runs middle (closing :: stop))
    (opens : opening.terminal = .openBracket) (closes : closing.terminal = .closeBracket) :
    (Phrase.value (.list opening.position closing.position nodes)).Runs
      (opening :: middle) stop := by
  intro site stage awaits
  obtain ⟨expected, stepped⟩ := awaits.step opening (by simp [opens])
  have opened : stage.step opening = .ok (.element site opening.position []) := by
    have other := literal?_none (show opening.terminal ∉ _ by simp [opens])
    simp only [stepped, stepValue, other, opens]
  exact (run_step opened).trans (inside site opening.position [] closing stop closes rfl)

theorem Phrase.Runs.lastElement {node : Node} (value : (Phrase.value node).Runs start stop) :
    (Phrase.elements [node]).Runs start stop := by
  rintro outer opening before closing rest bracket rfl
  refine (value _ _ Awaits.element).trans (run_step ?_)
  simp [Site.fill, Stage.step, stepSeparator, bracket, closeList]

theorem Phrase.Runs.moreElements {node : Node} {nodes : List Node} {comma : Lexeme}
    (value : (Phrase.value node).Runs start (comma :: middle)) (same : comma.terminal = .comma)
    (others : (Phrase.elements nodes).Runs middle stop) :
    (Phrase.elements (node :: nodes)).Runs start stop := by
  rintro outer opening before closing rest bracket rfl
  have parted : (Stage.separator outer opening (node :: before)).step comma =
      .ok (.element outer opening (node :: before)) := by
    simp only [Stage.step, stepSeparator, same]
  have more := others outer opening (node :: before) closing rest bracket rfl
  refine (value _ _ Awaits.element).trans ((run_step parted).trans (more.trans ?_))
  simp

end

theorem Derives.runs {start stop : List Lexeme} {phrase : Phrase}
    (derives : Derives start phrase stop) : phrase.Runs start stop := by
  induction derives with
  | noItems => exact fun body last => ⟨last, id, rfl⟩
  | moreItems _ _ first ih =>
      intro body last
      obtain ⟨final, kept, rest⟩ := ih (body.add _) .value
      exact ⟨final, fun _ => kept (by decide), (first body last).trans rest⟩
  | separatedItems _ comma _ first ih =>
      intro body last
      obtain ⟨final, kept, rest⟩ := ih (body.add _) .comma
      exact ⟨final, fun _ => kept (by decide),
        (first body last).trans ((run_step (step_comma comma)).trans rest)⟩
  | assignment key equal _ ih =>
      intro body last
      rw [run_step (step_key key), run_step (step_equal equal)]
      exact ih _ _ Awaits.value
  | block _ _ keys object =>
      intro body last
      obtain ⟨key, before, rfl, front⟩ := keys body last
      exact front.trans (object _ _ (opens_keys body key before))
  | oneKey read => exact fun body last => ⟨_, [], rfl, run_step (step_key read)⟩
  | moreKeys _ read ih =>
      intro body last
      obtain ⟨key, before, rfl, front⟩ := ih body last
      exact ⟨_, key :: before, by simp, front.trans (run_step (step_nextKey read))⟩
  | literal read => exact runs_literal read
  | objectValue _ ih => exact fun site stage awaits => ih site stage awaits.opens
  | object opens _ closes items => exact items.object opens closes
  | list opens _ closes elements => exact elements.list opens closes
  | noElements =>
      rintro outer opening before closing rest bracket rfl
      exact run_step (by simp [Stage.step, bracket, closeList])
  | lastElement _ value => exact value.lastElement
  | moreElements _ comma _ value elements => exact value.moreElements comma elements

theorem run_eq_ok_iff {lexemes : List Lexeme} {items : List Item} :
    (∃ last, Stage.initial.run lexemes = .ok last ∧ last.finish = .ok items) ↔
      Derives lexemes (.items items) [] := by
  constructor
  · rintro ⟨last, accepted, finished⟩
    exact derives_of_run accepted finished
  · intro derives
    obtain ⟨final, _, accepted⟩ := derives.runs (.document []) .nothing
    refine ⟨_, accepted, ?_⟩
    simp [addAll_document, Stage.finish]

end ConfigIndex.Document
