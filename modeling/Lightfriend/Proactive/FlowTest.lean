import Lightfriend.Proactive.Flow

/-! # The test panel against the evaluation

Both interpreters decide the conditions on one way down the tree. They part
where a rule of a group skips the language model, and at an action that the
evaluation does not perform.
-/

namespace Lightfriend.Proactive

open Prune (Json)

/-! ## The tree, one branch at a time -/

namespace FlowNode

def child (b : Bool) : FlowNode → Option FlowNode
  | llmCondition _ _ trueBranch falseBranch => if b then trueBranch else falseBranch
  | keywordCondition _ trueBranch falseBranch => if b then trueBranch else falseBranch
  | action _ _ => none

def asksLlm : FlowNode → Bool
  | llmCondition _ _ _ _ => true
  | _ => false

/-- A property of every tree follows from the trees below the root. -/
theorem induction_child {motive : FlowNode → Prop}
    (step : ∀ n : FlowNode, (∀ b c, n.child b = some c → motive c) → motive n) :
    ∀ n, motive n
  | llmCondition prompt fetch trueBranch falseBranch => by
      refine step _ (fun b c hc => ?_)
      cases b with
      | true =>
          change trueBranch = some c at hc
          subst hc
          exact induction_child step c
      | false =>
          change falseBranch = some c at hc
          subst hc
          exact induction_child step c
  | keywordCondition keyword trueBranch falseBranch => by
      refine step _ (fun b c hc => ?_)
      cases b with
      | true =>
          change trueBranch = some c at hc
          subst hc
          exact induction_child step c
      | false =>
          change falseBranch = some c at hc
          subst hc
          exact induction_child step c
  | action actionType config => step _ (fun _ _ hc => by cases hc)

end FlowNode

section Interpreters

variable (env : FlowEnv) (rule : FlowRule) (triggerContext : String)

/-- The branch that the panel takes at a condition. -/
def panelBranch (path : List Bool) : FlowNode → Option Bool
  | .llmCondition _ _ _ _ =>
      match env.answer path with
      | .ok result => some result.conditionMet
      | .error _ => none
  | .keywordCondition keyword _ _ => some (keywordMatches env triggerContext keyword)
  | .action _ _ => none

/-- The branch that the evaluation takes at a condition. -/
def flowBranch (path : List Bool) (n : FlowNode) : Option Bool :=
  if n.asksLlm && rule.groupMode.isSome then some true else panelBranch env triggerContext path n

/-- The evaluation of what a branch leads to. -/
def runBelow (snapshot : Option Json) (child : Option FlowNode) (path : List Bool)
    (prevMessage : Option String) (prevExtras : Option Extras) : FlowRun :=
  child.elim FlowRun.done
    (fun c => evaluateFlow env rule triggerContext snapshot c path prevMessage prevExtras)

variable {env rule triggerContext}

theorem evaluateFlow_takes (snapshot : Option Json) {n : FlowNode} {path : List Bool} {b : Bool}
    (h : flowBranch env rule triggerContext path n = some b) (prevMessage : Option String)
    (prevExtras : Option Extras) :
    ∃ message extras, evaluateFlow env rule triggerContext snapshot n path prevMessage prevExtras =
      (runBelow env rule triggerContext snapshot (n.child b) (path ++ [b]) message extras).under
        b := by
  cases n with
  | action actionType config => simp [flowBranch, FlowNode.asksLlm, panelBranch] at h
  | keywordCondition keyword trueBranch falseBranch =>
      have hb : keywordMatches env triggerContext keyword = b := by
        simpa [flowBranch, FlowNode.asksLlm, panelBranch] using h
      refine ⟨prevMessage, prevExtras, ?_⟩
      subst hb
      cases hk : keywordMatches env triggerContext keyword with
      | true => cases trueBranch <;> cases falseBranch <;> simp [evaluateFlow, hk, runBelow, FlowNode.child]
      | false => cases trueBranch <;> cases falseBranch <;> simp [evaluateFlow, hk, runBelow, FlowNode.child]
  | llmCondition prompt fetch trueBranch falseBranch =>
      by_cases hg : rule.groupMode.isSome = true
      · have hb : true = b := by simpa [flowBranch, FlowNode.asksLlm, hg] using h
        subst hb
        refine ⟨prevMessage, prevExtras, ?_⟩
        cases trueBranch <;> cases falseBranch <;> simp [evaluateFlow, hg, runBelow, FlowNode.child]
      · simp only [flowBranch, FlowNode.asksLlm, hg, panelBranch] at h
        cases ha : env.answer path with
        | error message => simp [ha] at h
        | ok result =>
            have hb : result.conditionMet = b := by simpa [ha] using h
            subst hb
            cases hm : result.conditionMet with
            | true =>
                refine ⟨result.message.or prevMessage,
                  (if result.extra.isEmpty then none else some result.extra).or prevExtras, ?_⟩
                cases trueBranch <;> cases falseBranch <;> simp [evaluateFlow, hg, ha, hm, runBelow, FlowNode.child]
            | false =>
                refine ⟨prevMessage, prevExtras, ?_⟩
                cases trueBranch <;> cases falseBranch <;> simp [evaluateFlow, hg, ha, hm, runBelow, FlowNode.child]

/-! ## What the panel reports -/

def branchOf : RuleTestStep → Option Bool
  | .llmResult decided _ => some decided
  | .keywordResult matched => some matched
  | _ => none

def actionOf : RuleTestStep → Option (String × String)
  | .wouldExecute actionType description => some (actionType, description)
  | _ => none

/-- An action as the panel words it: its type, and its method or its tool. -/
def Execution.report : Execution → String × String
  | .notify method _ => ("notify", notifyDescription method)
  | .toolCall tool _ => ("tool_call", toolDescription tool)

/-- The branches and the leaf actions of the panel are those of the run. -/
structure Agrees (steps : List RuleTestStep) (run : FlowRun) : Prop where
  branches : steps.filterMap branchOf = run.branches
  actions : steps.filterMap actionOf = run.executed.map Execution.report

theorem agrees_under {head rest : List RuleTestStep} {run : FlowRun} {b : Bool}
    (hb : head.filterMap branchOf = [b]) (ha : head.filterMap actionOf = []) (b' : Bool) :
    Agrees (head ++ rest) (run.under b') ↔ b' = b ∧ Agrees rest run := by
  have hbs : (head ++ rest).filterMap branchOf = b :: rest.filterMap branchOf := by
    rw [List.filterMap_append, hb]
    rfl
  have has : (head ++ rest).filterMap actionOf = rest.filterMap actionOf := by
    rw [List.filterMap_append, ha]
    rfl
  constructor
  · intro h
    have hbr : b :: rest.filterMap branchOf = b' :: run.branches := hbs ▸ h.branches
    obtain ⟨rfl, hrest⟩ := List.cons.inj hbr
    exact ⟨rfl, hrest, has ▸ h.actions⟩
  · rintro ⟨rfl, h⟩
    have hbr : (head ++ rest).filterMap branchOf = b' :: run.branches := by rw [hbs, h.branches]
    exact ⟨hbr, has.trans h.actions⟩

/-- The steps for what a branch leads to. -/
def reportBelow (env : FlowEnv) (rule : FlowRule) (triggerContext : String)
    (child : Option FlowNode) (path : List Bool) (reason : String) : List RuleTestStep :=
  child.elim [.noAction reason] (fun c => evaluateFlowTest env rule triggerContext c path)

theorem evaluateFlowTest_takes (rule : FlowRule) {n : FlowNode} {path : List Bool} {b : Bool}
    (h : panelBranch env triggerContext path n = some b) :
    ∃ head reason, evaluateFlowTest env rule triggerContext n path =
        head ++ reportBelow env rule triggerContext (n.child b) (path ++ [b]) reason ∧
      head.filterMap branchOf = [b] ∧ head.filterMap actionOf = [] := by
  cases n with
  | action actionType config => cases h
  | keywordCondition keyword trueBranch falseBranch =>
      have hb : keywordMatches env triggerContext keyword = b := by
        simpa [panelBranch] using h
      refine ⟨[.checkingKeyword keyword, .keywordResult b],
        if b then "Keyword matched but no action configured"
        else "Keyword did not match and no else branch", ?_, rfl, rfl⟩
      cases b <;> cases trueBranch <;> cases falseBranch <;>
        simp [evaluateFlowTest, hb, reportBelow, FlowNode.child]
  | llmCondition prompt fetch trueBranch falseBranch =>
      cases ha : env.answer path with
      | error message => simp [panelBranch, ha] at h
      | ok result =>
          have hb : result.conditionMet = b := by simpa [panelBranch, ha] using h
          refine ⟨(if fetch.isEmpty then [] else [.prefetching (fetch.map sourceName)]) ++
            [.evaluatingLlm (promptPreview (env.resolvePromptTemplate prompt rule.triggerType)),
              .llmResult b result.message],
            if b then "Condition was true but no action configured"
            else "Condition was false and no else branch", ?_, ?_, ?_⟩
          · cases b <;> cases trueBranch <;> cases falseBranch <;>
              simp [evaluateFlowTest, ha, hb, reportBelow, FlowNode.child]
          · by_cases hf : fetch.isEmpty = true
            · simp only [hf]
              rfl
            · simp only [hf]
              rfl
          · by_cases hf : fetch.isEmpty = true
            · simp only [hf]
              rfl
            · simp only [hf]
              rfl

/-! ## Where the two part -/

/-- The nodes on the way that the answers and the message select, each with the branches to it. -/
inductive Visits (env : FlowEnv) (triggerContext : String) :
    FlowNode → List Bool → FlowNode → List Bool → Prop
  | here (n : FlowNode) (path : List Bool) : Visits env triggerContext n path n path
  | next {n c m : FlowNode} {path q : List Bool} {b : Bool}
      (taken : panelBranch env triggerContext path n = some b) (child : n.child b = some c)
      (rest : Visits env triggerContext c (path ++ [b]) m q) : Visits env triggerContext n path m q

/-- An action that the evaluation has a handler for. -/
def Executable (env : FlowEnv) (rule : FlowRule) (actionType : String) (config : Json) : Prop :=
  actionType = "notify" ∨ actionType = "tool_call" ∧
    ∃ tool, jsonStr config "tool" = some tool ∧ env.registered tool = true ∧
      env.findById rule.userId = .ok true

/-- Where a rule of a group meets the language model it is answered that the condition is met, and
the leaf that is reached has a handler. -/
structure Faithful (env : FlowEnv) (rule : FlowRule) (triggerContext : String) (root : FlowNode)
    (path : List Bool) : Prop where
  answered : rule.groupMode.isSome → ∀ m q, Visits env triggerContext root path m q →
    m.asksLlm → panelBranch env triggerContext q m = some true
  handled : ∀ actionType config q,
    Visits env triggerContext root path (.action actionType config) q →
      Executable env rule actionType config

theorem visits_of_taken {n m : FlowNode} {path q : List Bool} {b : Bool}
    (h : panelBranch env triggerContext path n = some b)
    (hv : Visits env triggerContext n path m q) :
    (m = n ∧ q = path) ∨
      ∃ c, n.child b = some c ∧ Visits env triggerContext c (path ++ [b]) m q := by
  cases hv with
  | here => exact .inl ⟨rfl, rfl⟩
  | next taken child rest =>
      obtain rfl := Option.some.inj (h.symm.trans taken)
      exact .inr ⟨_, child, rest⟩

theorem visits_of_stopped {n m : FlowNode} {path q : List Bool}
    (h : panelBranch env triggerContext path n = none)
    (hv : Visits env triggerContext n path m q) : m = n ∧ q = path := by
  cases hv with
  | here => exact ⟨rfl, rfl⟩
  | next taken child rest =>
      rw [h] at taken
      cases taken

/-- A condition is faithful when its branch is the one of the evaluation and leads to a faithful
tree. -/
theorem faithful_of_taken {n : FlowNode} {path : List Bool} {b : Bool}
    (h : panelBranch env triggerContext path n = some b) :
    Faithful env rule triggerContext n path ↔
      flowBranch env rule triggerContext path n = some b ∧
        ∀ c, n.child b = some c → Faithful env rule triggerContext c (path ++ [b]) := by
  have own : flowBranch env rule triggerContext path n = some b ↔
      (rule.groupMode.isSome → n.asksLlm → b = true) := by
    unfold flowBranch
    by_cases hl : n.asksLlm = true <;> by_cases hg : rule.groupMode.isSome = true <;>
      simp [hl, hg, h, eq_comm]
  rw [own]
  constructor
  · intro hf
    refine ⟨fun hg hl => ?_, fun c hc => ⟨fun hg m q hv hm => ?_, fun t config q hv => ?_⟩⟩
    · have ht := hf.answered hg n path (.here n path) hl
      exact Option.some.inj (h.symm.trans ht)
    · exact hf.answered hg m q (.next h hc hv) hm
    · exact hf.handled t config q (.next h hc hv)
  · rintro ⟨hroot, hchild⟩
    refine ⟨fun hg m q hv hm => ?_, fun t config q hv => ?_⟩
    · rcases visits_of_taken h hv with ⟨rfl, rfl⟩ | ⟨c, hc, hv⟩
      · rw [h, hroot hg hm]
      · exact (hchild c hc).answered hg m q hv hm
    · rcases visits_of_taken h hv with ⟨rfl, rfl⟩ | ⟨c, hc, hv⟩
      · cases h
      · exact (hchild c hc).handled t config q hv

theorem executeFlowAction_report (env : FlowEnv) (rule : FlowRule) (snapshot : Option Json)
    (actionType : String) (config : Json) (message : String) (extras : Option Extras) :
    [(actionType, describeAction actionType config)] =
      (executeFlowAction env rule snapshot actionType config message extras).map
        Execution.report ↔ Executable env rule actionType config := by
  unfold executeFlowAction Executable
  by_cases hn : actionType = "notify"
  · subst hn
    simp [describeAction, Execution.report]
  · by_cases ht : actionType = "tool_call"
    · subst ht
      cases htool : jsonStr config "tool" with
      | none => simp
      | some tool =>
          cases hr : env.registered tool with
          | false => simp [hr]
          | true =>
              cases hu : env.findById rule.userId with
              | error message => simp [hr]
              | ok found => cases found <;> simp [htool, hr, describeAction, Execution.report]
    · simp [hn, ht]

theorem executable_iff_faithful {actionType : String} {config : Json} {path : List Bool} :
    Executable env rule actionType config ↔
      Faithful env rule triggerContext (.action actionType config) path := by
  constructor
  · intro h
    refine ⟨fun _ m q hv hm => ?_, fun t c q hv => ?_⟩
    · obtain ⟨rfl, -⟩ := visits_of_stopped rfl hv
      cases hm
    · obtain ⟨heq, -⟩ := visits_of_stopped rfl hv
      cases heq
      exact h
  · exact fun h => h.handled _ _ _ (.here _ path)

/-- Without an answer the panel takes no branch, and a rule of a group takes one. -/
theorem agrees_of_unanswered {snapshot : Option Json} {panel : FlowRule} {prompt : String}
    {fetch : List FetchSource} {trueBranch falseBranch : Option FlowNode} {path : List Bool}
    {error : String} (he : env.answer path = .error error) (prevMessage : Option String)
    (prevExtras : Option Extras) :
    Agrees
        (evaluateFlowTest env panel triggerContext
          (.llmCondition prompt fetch trueBranch falseBranch) path)
        (evaluateFlow env rule triggerContext snapshot
          (.llmCondition prompt fetch trueBranch falseBranch) path prevMessage prevExtras) ↔
      rule.groupMode.isSome = false := by
  have hsteps : (evaluateFlowTest env panel triggerContext
        (.llmCondition prompt fetch trueBranch falseBranch) path).filterMap branchOf = [] ∧
      (evaluateFlowTest env panel triggerContext
        (.llmCondition prompt fetch trueBranch falseBranch) path).filterMap actionOf = [] := by
    by_cases hf : fetch.isEmpty = true <;> cases trueBranch <;> cases falseBranch <;>
      simp only [evaluateFlowTest, he, hf] <;> exact ⟨rfl, rfl⟩
  by_cases hg : rule.groupMode.isSome = true
  · have hflow : flowBranch env rule triggerContext path
        (.llmCondition prompt fetch trueBranch falseBranch) = some true := by
      simp [flowBranch, FlowNode.asksLlm, hg]
    obtain ⟨message, extras, hrun⟩ :=
      evaluateFlow_takes snapshot hflow prevMessage prevExtras
    rw [hrun]
    constructor
    · intro h
      have hb := h.branches
      rw [hsteps.1] at hb
      cases hb
    · intro h
      rw [hg] at h
      cases h
  · have hrun : evaluateFlow env rule triggerContext snapshot
        (.llmCondition prompt fetch trueBranch falseBranch) path prevMessage prevExtras =
        ⟨[], [], some error⟩ := by
      cases trueBranch <;> cases falseBranch <;> simp [evaluateFlow, hg, he]
    rw [hrun]
    exact ⟨fun _ => by simpa using hg, fun _ => ⟨hsteps.1, hsteps.2⟩⟩

theorem agrees_iff_faithful (snapshot : Option Json) (panel : FlowRule) (n : FlowNode) :
    ∀ path prevMessage prevExtras,
      Agrees (evaluateFlowTest env panel triggerContext n path)
          (evaluateFlow env rule triggerContext snapshot n path prevMessage prevExtras) ↔
        Faithful env rule triggerContext n path := by
  induction n using FlowNode.induction_child with
  | step n ih =>
    intro path prevMessage prevExtras
    cases hp : panelBranch env triggerContext path n with
    | some b =>
        rw [faithful_of_taken hp]
        obtain ⟨head, reason, htest, hb, ha⟩ := evaluateFlowTest_takes panel hp
        obtain ⟨b', hflow⟩ : ∃ b', flowBranch env rule triggerContext path n = some b' := by
          unfold flowBranch
          split
          · exact ⟨true, rfl⟩
          · exact ⟨b, hp⟩
        obtain ⟨message, extras, hrun⟩ :=
          evaluateFlow_takes snapshot hflow prevMessage prevExtras
        rw [htest, hrun, agrees_under hb ha, hflow, Option.some.injEq]
        refine and_congr_right (fun hbb => ?_)
        subst hbb
        cases hc : n.child b' with
        | none => simpa [reportBelow, runBelow, FlowRun.done] using
            (⟨rfl, rfl⟩ : Agrees [.noAction reason] ⟨[], [], none⟩)
        | some c => simpa [reportBelow, runBelow] using ih b' c hc (path ++ [b']) message extras
    | none =>
        cases n with
        | keywordCondition keyword trueBranch falseBranch => cases hp
        | action actionType config =>
            rw [← executable_iff_faithful, ← executeFlowAction_report env rule snapshot actionType config
              (actionMessage env triggerContext snapshot config prevMessage) prevExtras]
            exact ⟨fun h => h.actions, fun h => ⟨rfl, h⟩⟩
        | llmCondition prompt fetch trueBranch falseBranch =>
            cases ha : env.answer path with
            | ok result => simp [panelBranch, ha] at hp
            | error message =>
                rw [agrees_of_unanswered ha]
                constructor
                · intro hg
                  refine ⟨fun hsome => ?_, fun t c q hv => ?_⟩
                  · rw [hg] at hsome
                    cases hsome
                  · obtain ⟨heq, -⟩ := visits_of_stopped hp hv
                    cases heq
                · intro hf
                  by_contra hg
                  have hasked := hf.answered (Bool.eq_true_of_not_eq_false hg) _ _ (.here _ path) rfl
                  rw [hp] at hasked
                  cases hasked

/-- For every tree, message and answers, the panel takes the branches and names the leaf action of
the evaluation exactly where no rule of a group is answered otherwise than that the condition is met,
and no leaf lacks a handler. -/
theorem panel_agrees_iff (env : FlowEnv) (rule panel : FlowRule) (triggerContext : String)
    (snapshot : Option Json) (root : FlowNode) :
    Agrees (evaluateFlowTest env panel triggerContext root [])
        (evaluateFlow env rule triggerContext snapshot root [] none none) ↔
      Faithful env rule triggerContext root [] :=
  agrees_iff_faithful snapshot panel root [] none none

end Interpreters

/-- A rule for mentions in a group: notify when the message is urgent. -/
def mentionFlow : FlowNode :=
  .llmCondition "Is this urgent?" [] (some (.action "notify" (.object []))) none

/-- The language model finds that no message is urgent. -/
def neverUrgent : FlowEnv where
  answer _ := .ok ⟨false, none, []⟩
  toLowercase := toAsciiLowercase
  resolvePromptTemplate prompt _ := prompt
  formatSnapshotMessage _ := "New activity"
  compactEmailNotification message _ := message
  registered _ := false
  findById _ := .ok true
  injectSnapshot _ _ params := params

/-- The panel takes the false branch of a rule of a group and ends without an action; the evaluation
notifies. -/
theorem panel_disagrees_on_group :
    (evaluateFlowTest neverUrgent (panelRule 1) "Message from Ann: lunch?" mentionFlow []).filterMap
        branchOf = [false] ∧
      (evaluateFlow neverUrgent ⟨1, "ontology_change", some "mention_only"⟩
        "Message from Ann: lunch?" none mentionFlow [] none none).branches = [true] ∧
      (evaluateFlow neverUrgent ⟨1, "ontology_change", some "mention_only"⟩
        "Message from Ann: lunch?" none mentionFlow [] none none).executed.map Execution.report =
          [("notify", "send sms notification")] ∧
      ¬ Agrees
        (evaluateFlowTest neverUrgent (panelRule 1) "Message from Ann: lunch?" mentionFlow [])
        (evaluateFlow neverUrgent ⟨1, "ontology_change", some "mention_only"⟩
          "Message from Ann: lunch?" none mentionFlow [] none none) :=
  ⟨by decide, by decide, by decide, fun h => absurd h.branches (by decide)⟩

end Lightfriend.Proactive
