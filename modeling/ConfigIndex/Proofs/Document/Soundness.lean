import ConfigIndex.Proofs.Document.Grammar

/-!
What the parser of documents accepts derives from the grammar.
-/

namespace ConfigIndex.Document

theorem Derives.keys_ne_nil {start rest : List Lexeme} {keys : List Token}
    (derives : Derives start (.keys keys) rest) : keys ≠ [] := by
  cases derives with
  | oneKey => simp
  | moreKeys => simp

theorem Derives.single_key {start rest : List Lexeme} {token : Token}
    (derives : Derives start (.keys [token]) rest) :
    ∃ key, start = key :: rest ∧ key.key? = some token := by
  generalize same : [token] = keys at derives
  generalize shape : Phrase.keys keys = phrase at derives
  cases derives with
  | @oneKey key found _ read =>
      cases shape
      cases same
      exact ⟨key, rfl, read⟩
  | moreKeys front read =>
      cases shape
      have filled := List.length_pos_iff.mpr front.keys_ne_nil
      have short := congrArg List.length same
      simp only [List.length_append, List.length_singleton] at short
      omega
  | _ => cases shape

def Site.isBlock : Site → Bool
  | .value _ _ none => true
  | _ => false

def Site.wants (site : Site) (node : Node) : Phrase :=
  if site.isBlock then .object node else .value node

mutual

/-- The words from `start` on have opened this body and may go on with items. -/
inductive Body.Open (start : List Lexeme) : Body → List Lexeme → Prop
  | document {before rest} :
      (∀ more stop, Derives rest (.items more) stop →
        Derives start (.items (before.reverse ++ more)) stop) →
      Body.Open start (.document before) rest
  | object {outer opening first before rest} : Site.Open start outer (opening :: first) →
      opening.terminal = .openBrace →
      (∀ more stop, Derives rest (.items more) stop →
        Derives first (.items (before.reverse ++ more)) stop) →
      Body.Open start (.object outer opening.position before) rest

inductive Site.Open (start : List Lexeme) : Site → List Lexeme → Prop
  | assigned {body key token equal rest} : Body.Open start body (key :: equal :: rest) →
      key.key? = some token → equal.terminal = .equal →
      Site.Open start (.value body [token] (some equal.position)) rest
  | block {body first keys rest} : Body.Open start body first → Derives first (.keys keys) rest →
      Site.Open start (.value body keys none) rest
  | element {outer opening first before rest} : Site.Open start outer (opening :: first) →
      outer.isBlock = false → opening.terminal = .openBracket →
      (∀ more stop, Derives rest (.elements more) stop →
        Derives first (.elements (before.reverse ++ more)) stop) →
      Site.Open start (.element outer opening.position before) rest

end

inductive Stage.Holds (start : List Lexeme) : Stage → List Lexeme → Prop
  | item {body last rest} : last ≠ .value → Body.Open start body rest →
      Stage.Holds start (.item body last) rest
  | added {body first item rest} : Body.Open start body first → Derives first (.item item) rest →
      Stage.Holds start (.item (body.add item) .value) rest
  | keys {body first key before rest} : Body.Open start body first →
      Derives first (.keys (key :: before).reverse) rest →
      Stage.Holds start (.keys body key before) rest
  | value {site rest} : Site.Open start site rest → site.isBlock = false →
      Stage.Holds start (.value site) rest
  | element {outer opening before rest} : Site.Open start (.element outer opening before) rest →
      Stage.Holds start (.element outer opening before) rest
  | separator {outer opening before first node rest} :
      Site.Open start (.element outer opening before) first → Derives first (.value node) rest →
      Stage.Holds start (.separator outer opening (node :: before)) rest

theorem Body.Open.add {start first rest : List Lexeme} {body : Body} {item : Item}
    (opened : Body.Open start body first)
    (adds : ∀ items stop, Derives rest (.items items) stop →
      Derives first (.items (item :: items)) stop) : Body.Open start (body.add item) rest := by
  cases opened with
  | document base =>
      apply Body.Open.document
      intro more stop derives
      simpa using base _ stop (adds more stop derives)
  | object outer brace base =>
      apply Body.Open.object outer brace
      intro more stop derives
      simpa using base _ stop (adds more stop derives)

theorem Stage.Holds.body {start rest : List Lexeme} {body : Body} {last : Last}
    (holds : Stage.Holds start (.item body last) rest) : Body.Open start body rest := by
  cases holds with
  | item _ opened => exact opened
  | added opened item => exact opened.add fun items stop rest => Derives.moreItems item rest

theorem Site.Open.fill {start first rest : List Lexeme} {site : Site} {node : Node}
    (opened : Site.Open start site first) (derives : Derives first (site.wants node) rest) :
    Stage.Holds start (site.fill node) rest := by
  cases opened with
  | assigned opened key equal =>
      exact Stage.Holds.added opened (Derives.assignment key equal derives)
  | block opened keys => exact Stage.Holds.added opened (Derives.block keys derives)
  | element outer plain bracket base =>
      exact Stage.Holds.separator (Site.Open.element outer plain bracket base) derives

theorem Site.wants_object {site : Site} {node : Node} {first rest : List Lexeme}
    (derives : Derives first (.object node) rest) : Derives first (site.wants node) rest := by
  unfold Site.wants
  split
  · exact derives
  · exact Derives.objectValue derives

theorem Site.wants_value {site : Site} {node : Node} {first rest : List Lexeme}
    (plain : site.isBlock = false) (derives : Derives first (.value node) rest) :
    Derives first (site.wants node) rest := by
  rw [Site.wants, plain]
  exact derives

theorem Site.Open.close {start first stop : List Lexeme} {outer : Site} {opening : Position}
    {before nodes : List Node} {closing : Lexeme}
    (opened : Site.Open start (.element outer opening before) first)
    (derives : Derives first (.elements nodes) (closing :: stop))
    (bracket : closing.terminal = .closeBracket) :
    Stage.Holds start (outer.fill (.list opening closing.position (before.reverse ++ nodes)))
      stop := by
  cases opened with
  | element outer plain start base =>
      exact outer.fill (Site.wants_value plain (Derives.list start (base _ _ derives) bracket))

theorem Stage.Holds.stepItem {start rest : List Lexeme} {body : Body} {last : Last}
    {lexeme : Lexeme} {next : Stage} (holds : Stage.Holds start (.item body last) (lexeme :: rest))
    (stepped : stepItem body last lexeme = .ok next) : Stage.Holds start next rest := by
  have opened := holds.body
  unfold Document.stepItem at stepped
  split at stepped
  · rename_i key read
    cases stepped
    exact Stage.Holds.keys opened (Derives.oneKey read)
  · split at stepped
    · cases stepped
    · rename_i brace _
      split at stepped
      · cases stepped
      · cases stepped
        cases opened with
        | object outer start base =>
            have items := base [] _ Derives.noItems
            rw [List.append_nil] at items
            exact outer.fill (Site.wants_object (Derives.object start items brace))
    · rename_i comma
      cases stepped
      cases holds with
      | item other => exact absurd rfl other
      | added front item =>
          exact Stage.Holds.item (by decide)
            (front.add fun items stop rest => Derives.separatedItems item comma rest)
    · cases stepped
    · cases stepped

theorem Stage.Holds.stepKeys {start rest : List Lexeme} {body : Body} {key : Token}
    {before : List Token} {lexeme : Lexeme} {next : Stage}
    (holds : Stage.Holds start (.keys body key before) (lexeme :: rest))
    (stepped : stepKeys body key before lexeme = .ok next) : Stage.Holds start next rest := by
  cases holds with
  | keys opened keys =>
      unfold Document.stepKeys at stepped
      split at stepped
      · rename_i other read
        cases stepped
        apply Stage.Holds.keys opened
        rw [List.reverse_cons]
        exact Derives.moreKeys keys read
      · split at stepped
        · rename_i brace
          cases stepped
          exact Stage.Holds.item (by decide)
            (Body.Open.object (Site.Open.block opened keys) brace fun more stop rest => rest)
        · rename_i equal
          split at stepped
          · cases stepped
            obtain ⟨first, rfl, read⟩ := keys.single_key
            exact Stage.Holds.value (Site.Open.assigned opened read equal) rfl
          · cases stepped
        · cases stepped

theorem Site.Open.stepValue {start rest : List Lexeme} {site : Site} {expected : Expected}
    {lexeme : Lexeme} {next : Stage} (opened : Site.Open start site (lexeme :: rest))
    (plain : site.isBlock = false) (stepped : stepValue site expected lexeme = .ok next) :
    Stage.Holds start next rest := by
  unfold Document.stepValue at stepped
  split at stepped
  · rename_i token read
    cases stepped
    exact opened.fill (Site.wants_value plain (Derives.literal read))
  · split at stepped
    · rename_i brace
      cases stepped
      exact Stage.Holds.item (by decide)
        (Body.Open.object opened brace fun more stop rest => rest)
    · rename_i bracket
      cases stepped
      exact Stage.Holds.element
        (Site.Open.element opened plain bracket fun more stop rest => rest)
    · cases stepped

theorem Stage.Holds.step {start rest : List Lexeme} {stage next : Stage} {lexeme : Lexeme}
    (holds : Stage.Holds start stage (lexeme :: rest)) (stepped : stage.step lexeme = .ok next) :
    Stage.Holds start next rest := by
  cases stage with
  | item body last => exact holds.stepItem stepped
  | keys body key before => exact holds.stepKeys stepped
  | value site =>
      cases holds with
      | value opened plain => exact opened.stepValue plain stepped
  | element outer opening before =>
      cases holds with
      | element opened =>
          simp only [Stage.step] at stepped
          split at stepped
          · rename_i bracket
            cases stepped
            simpa [closeList] using opened.close Derives.noElements bracket
          · exact opened.stepValue rfl stepped
  | separator outer opening before =>
      cases holds with
      | separator opened value =>
          simp only [Stage.step, stepSeparator] at stepped
          split at stepped
          · rename_i comma
            cases stepped
            cases opened with
            | element outer plain bracket base =>
                apply Stage.Holds.element
                apply Site.Open.element outer plain bracket
                intro more stop derives
                simpa using base _ stop (Derives.moreElements value comma derives)
          · rename_i bracket
            cases stepped
            simpa [closeList] using opened.close (Derives.lastElement value) bracket
          all_goals cases stepped

theorem Stage.Holds.run {start : List Lexeme} {lexemes : List Lexeme} {stage last : Stage}
    (holds : Stage.Holds start stage lexemes) (accepted : stage.run lexemes = .ok last) :
    Stage.Holds start last [] := by
  induction lexemes generalizing stage with
  | nil =>
      cases accepted
      exact holds
  | cons lexeme rest ih =>
      simp only [Stage.run] at accepted
      split at accepted
      · rename_i next stepped
        exact ih (holds.step stepped) accepted
      · cases accepted

theorem derives_of_run {lexemes : List Lexeme} {last : Stage} {items : List Item}
    (accepted : Stage.initial.run lexemes = .ok last) (finished : last.finish = .ok items) :
    Derives lexemes (.items items) [] := by
  have initial : Stage.Holds lexemes Stage.initial lexemes :=
    Stage.Holds.item (by decide) (Body.Open.document fun more stop rest => by simpa using rest)
  have final := initial.run accepted
  unfold Stage.finish at finished
  split at finished
  · cases finished
    have opened := final.body
    cases opened with
    | document base => simpa using base [] _ Derives.noItems
  all_goals cases finished

end ConfigIndex.Document
