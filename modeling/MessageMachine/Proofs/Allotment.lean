import MessageMachine.Proofs.Preparation

/-!
# Which node is allotted which site

Preparation allots the sites of a tree in one pass, in which a node follows its operands.  Listed in
this order the sites of one kind are all those that were added on the way, one after the other: none
is left out, and none is used twice.  The three kinds are counted independently of each other, so
that everything is stated of one kind, whichever it is.
-/

namespace MessageMachine

/-- The kinds of sites that preparation allots. -/
inductive SiteKind
  | call
  | field
  | control
deriving DecidableEq, Repr

/-- The number of sites of a kind. -/
def Sites.count (sites : Sites) : SiteKind → Nat
  | .call => sites.calls.size
  | .field => sites.fields.size
  | .control => sites.controls.size

/-- The sites of a kind that some sites have beyond others, oldest first. -/
def Sites.beyond (before after : Sites) (kind : SiteKind) : List Nat :=
  List.range' (before.count kind) (after.count kind - before.count kind)

/-- The control site of a node. -/
def OutlineNode.controlSite? : OutlineNode → Option ControlSiteRef
  | .control site _ _ _ => some site
  | _ => none

/-- The site of a kind that a node has, as a number. -/
def OutlineNode.site? (kind : SiteKind) (node : OutlineNode) : Option Nat :=
  match kind with
  | .call => node.callSite?.map Ref.index
  | .field => node.fieldSite?.map Ref.index
  | .control => node.controlSite?.map Ref.index

mutual

/-- The nodes of an expression, each of them after its operands. -/
def Code.postorder : Code → List OutlineNode
  | .self => []
  | .read _ => []
  | .write _ value => value.postorder
  | .readField site index => [.read site index]
  | .writeField site index value => value.postorder ++ [.write site index]
  | .global _ => []
  | .literal _ => []
  | .block parameters temporaries captures body =>
      Code.postorderAll body ++ [.block parameters temporaries captures]
  | .send site selector receiver operands =>
      receiver.postorder ++ Code.postorderAll operands ++ [.send site selector]
  | .superSend site origin selector operands =>
      Code.postorderAll operands ++ [.superSend site origin selector]
  | .control controlSite message site selector receiver operands =>
      receiver.postorder ++ Code.postorderAll operands ++
        [.control controlSite message site selector]
  | .answer value _ => value.postorder

/-- The nodes of expressions, one expression after the other. -/
def Code.postorderAll : List Code → List OutlineNode
  | [] => []
  | code :: rest => code.postorder ++ Code.postorderAll rest

end

namespace Code

/-- What stands before its operands in one order follows them in the other. -/
theorem perm_of_operands {operands others : List OutlineNode} (perm : operands.Perm others)
    (node : OutlineNode) : (operands ++ [node]).Perm (node :: others) :=
  (List.perm_append_singleton node operands).trans (perm.cons node)

mutual

/-- The two orders list the same nodes. -/
theorem postorder_perm (code : Code) : code.postorder.Perm code.outline := by
  cases code with
  | self | read | readField | global | literal => exact .refl _
  | write slot value => exact postorder_perm value
  | answer value span => exact postorder_perm value
  | writeField site index value => exact perm_of_operands (postorder_perm value) _
  | block parameters temporaries captures body => exact perm_of_operands (postorderAll_perm body) _
  | superSend site origin selector operands =>
      exact perm_of_operands (postorderAll_perm operands) _
  | send site selector receiver operands =>
      exact perm_of_operands ((postorder_perm receiver).append (postorderAll_perm operands)) _
  | control controlSite message site selector receiver operands =>
      exact perm_of_operands ((postorder_perm receiver).append (postorderAll_perm operands)) _

theorem postorderAll_perm (codes : List Code) : (postorderAll codes).Perm (outlineAll codes) := by
  cases codes with
  | nil => exact .refl _
  | cons code rest => exact (postorder_perm code).append (postorderAll_perm rest)

end

end Code

namespace Sites

variable {before between after : Sites}

@[simp]
theorem beyond_self (sites : Sites) (kind : SiteKind) : sites.beyond sites kind = [] := by
  rw [beyond, Nat.sub_self, List.range'_zero]

/-- Sites that are added in two steps are listed one step after the other. -/
theorem beyond_append {kind : SiteKind} (earlier : before.count kind ≤ between.count kind)
    (later : between.count kind ≤ after.count kind) :
    before.beyond between kind ++ between.beyond after kind = before.beyond after kind :=
  range'_span earlier later

/-- However allotments go on, no site is taken back. -/
theorem Allotted.count_le (allotted : before.Allotted after) (kind : SiteKind) :
    before.count kind ≤ after.count kind := by
  induction allotted with
  | nothing => exact Nat.le_refl _
  | call _ inductionHypothesis =>
      refine Nat.le_trans inductionHypothesis ?_
      cases kind <;> simp [count, addCall]
  | field _ inductionHypothesis =>
      refine Nat.le_trans inductionHypothesis ?_
      cases kind <;> simp [count, addField]
  | control _ inductionHypothesis =>
      refine Nat.le_trans inductionHypothesis ?_
      cases kind <;> simp [count, addControl]

/-- Some nodes have, in the order in which they are listed, exactly the sites that were added. -/
structure Lists (before after : Sites) (nodes : List OutlineNode) : Prop where
  grown : ∀ kind, before.count kind ≤ after.count kind
  listed : ∀ kind, nodes.filterMap (OutlineNode.site? kind) = before.beyond after kind

namespace Lists

variable {nodes others : List OutlineNode}

theorem nil (sites : Sites) : sites.Lists sites [] where
  grown := fun _ => Nat.le_refl _
  listed := fun kind => (sites.beyond_self kind).symm

theorem append (earlier : before.Lists between nodes) (later : between.Lists after others) :
    before.Lists after (nodes ++ others) where
  grown := fun kind => Nat.le_trans (earlier.grown kind) (later.grown kind)
  listed := fun kind => by
    rw [List.filterMap_append, earlier.listed, later.listed]
    exact beyond_append (earlier.grown kind) (later.grown kind)

/-- A node without sites. -/
theorem plain {node : OutlineNode} (none : ∀ kind, node.site? kind = none) (sites : Sites) :
    sites.Lists sites [node] where
  grown := fun _ => Nat.le_refl _
  listed := fun kind => by simp [none]

/-- A node with one new site. -/
theorem call {node : OutlineNode} {sites : Sites}
    (own : node.site? .call = some (sites.count .call))
    (field : node.site? .field = none) (control : node.site? .control = none) :
    sites.Lists sites.addCall [node] := by
  constructor
  · exact (Allotted.call .nothing).count_le
  · intro kind
    cases kind <;> simp [own, field, control, beyond, count, addCall]

theorem field {node : OutlineNode} {sites : Sites}
    (own : node.site? .field = some (sites.count .field))
    (call : node.site? .call = none) (control : node.site? .control = none) :
    sites.Lists sites.addField [node] := by
  constructor
  · exact (Allotted.field .nothing).count_le
  · intro kind
    cases kind <;> simp [own, call, control, beyond, count, addField]

/-- A control message has a new send site besides its own. -/
theorem control {sites : Sites} {message : ControlMessage} {selector : Selector} :
    sites.Lists sites.addCall.addControl
      [.control sites.controls.next message sites.calls.next selector] := by
  constructor
  · exact (Allotted.control (.call .nothing)).count_le
  · intro kind
    cases kind <;>
      simp [OutlineNode.site?, OutlineNode.callSite?, OutlineNode.fieldSite?,
        OutlineNode.controlSite?, beyond, count, addCall, addControl, Arena.next]

end Lists

end Sites

namespace Source.Expression

mutual

/-- The code of an expression uses the sites that its preparation added, each of them once, in the
order in which they were added. -/
theorem prepare_lists {surroundings : Surroundings} {scopes : List Scope} {draft after : Draft}
    (expression : Expression) {code : Code}
    (success : expression.prepare surroundings scopes draft = .ok code after) :
    draft.Lists after code.postorder := by
  cases expression with
  | self =>
      cases prepared_of_prepare success with
      | self => exact .nil _
  | global name =>
      cases prepared_of_prepare success with
      | global => exact .nil _
  | literal value =>
      cases prepared_of_prepare success with
      | literal _ => exact .nil _
  | read address =>
      cases prepared_of_prepare success with
      | readSlot => exact .nil _
      | readField => exact .field rfl rfl rfl
  | write address value =>
      cases prepared_of_prepare success with
      | writeSlot _ prepared =>
          rw [Code.postorder]
          exact prepare_lists value prepared
      | writeField _ prepared => exact (prepare_lists value prepared).append (.field rfl rfl rfl)
  | answer value span =>
      cases prepared_of_prepare success with
      | answer prepared =>
          rw [Code.postorder]
          exact prepare_lists value prepared
  | send receiver selector operands =>
      cases prepared_of_prepare success with
      | send _ prepared preparedAll _ =>
          have parts := (prepare_lists receiver prepared).append
            (prepareAll_lists operands preparedAll)
          exact parts.append (.call rfl rfl rfl)
      | control _ prepared preparedAll _ =>
          have parts := (prepare_lists receiver prepared).append
            (prepareAll_lists operands preparedAll)
          exact parts.append .control
  | superSend selector operands =>
      cases prepared_of_prepare success with
      | superSend _ preparedAll =>
          exact (prepareAll_lists operands preparedAll).append (.call rfl rfl rfl)
  | block parameters temporaries body =>
      cases prepared_of_prepare success with
      | block _ preparedAll =>
          refine (prepareAll_lists body preparedAll).append (.plain ?_ _)
          intro kind
          cases kind <;> rfl

theorem prepareAll_lists {surroundings : Surroundings} {scopes : List Scope}
    {draft after : Draft} (expressions : List Expression) {codes : List Code}
    (success : prepareAll surroundings scopes expressions draft = .ok codes after) :
    draft.Lists after (Code.postorderAll codes) := by
  cases expressions with
  | nil =>
      cases success
      exact .nil _
  | cons expression rest =>
      rcases prepared_of_prepareAll success with
        ⟨code, between, others, rfl, prepared, preparedAll⟩
      exact (prepare_lists expression prepared).append (prepareAll_lists rest preparedAll)

end

end Source.Expression

/-- The body of a prepared method uses the sites that its preparation added, and the method lists
those of its sends. -/
theorem Source.MethodDefinition.prepare_lists {definition : MethodDefinition}
    {surroundings : Surroundings} {draft after : Draft} {routine : Routine}
    (unlisted : draft.callSites = #[])
    (success : definition.prepare surroundings draft = .ok routine after) :
    draft.Lists after (Code.postorderAll routine.body) ∧
      routine.callSites.map Ref.index = draft.beyond after .call := by
  have extended := definition.prepare_extends surroundings draft
  rw [success] at extended
  rcases prepared_of_prepare success with ⟨temporaries, body, codes, -, -, preparedAll, rfl⟩
  refine ⟨Expression.prepareAll_lists body preparedAll, ?_⟩
  rw [extended.callSites_of_none unlisted]
  exact (List.map_map ..).trans (List.map_id _)

end MessageMachine
