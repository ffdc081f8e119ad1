/-
Rules leave the reader on the last token of what they read. A rule is entered on the first token of a node, and
where it succeeds the node goes from the start of that token to the end of the current one, whether the rule took
the end from a part of the node or from the reader. This holds on every way through a source, so what comes next
may always start behind the current token.
-/
import SemFront.Proofs.Placement.Program

namespace SemFront

variable {cs : List Char} {r s : Reader}

/-- What was read from the current token of one reader to that of another: the span starts with the first, in its
file, line and column, and stops with the second, and the second is the same token of the input or a later one. -/
structure Reader.RunsTo (r s : Reader) (span : Span) : Prop where
  span_eq : span = { r.current.span with stop := s.current.span.stop }
  start_le : r.current.span.start ≤ s.current.span.start
  rest : s.rest <:+ r.rest
  eof : s.eof = r.eof

theorem Extent.runsTo {span : Span} {os : List Outline} (h : Extent cs r s span os) (hr : r.Placed cs) :
    r.RunsTo s span :=
  ⟨h.span, hr.start_mono h.leads, h.leads.rest, h.leads.eof⟩

namespace Rule

/-- Where a rule succeeds, what it has read runs from the token that it was entered on to the one that it is left
on. -/
def EndsOnLast (x : Rule α) (span : α → Span) (r : Reader) : Prop :=
  ∀ a s, x r = .ok a s → r.RunsTo s (span a)

section EndsOnLast

variable {x : Rule α} {span : α → Span}

theorem Places.endsOnLast {outline : α → List Outline} (h : x.Places cs span outline) (hr : r.Placed cs) :
    x.EndsOnLast span r := fun _ _ e => ((h r hr).ok e).runsTo hr

/-- A rule that is known to succeed has read something that it ends on. -/
theorem EndsOnLast.exists_ok {Q : α → Reader → Prop} (h : x.EndsOnLast span r) (hx : x.Ensures r Q fun _ => False) :
    ∃ a s, x r = .ok a s ∧ Q a s ∧ r.RunsTo s (span a) := by
  obtain ⟨a, s, e, hq⟩ := hx.exists_ok
  exact ⟨a, s, e, hq, h a s e⟩

end EndsOnLast

/-- At a reader, every rule that reads one node ends on the last token of it. Rules for nodes that stand inside of
others of their kind do so at any depth; that for a class does if the class is closed. -/
structure PositionInvariant (r : Reader) : Prop where
  exprs : expr.EndsOnLast Expr.span r
  innerExprs : ∀ depth level, (exprAt depth level).EndsOnLast Expr.span r
  stmts : (stmt block).EndsOnLast Stmt.span r
  innerStmts : ∀ depth, (stmt (blockAt depth)).EndsOnLast Stmt.span r
  blocks : block.EndsOnLast Block.span r
  innerBlocks : ∀ depth, (blockAt depth).EndsOnLast Block.span r
  params : param.EndsOnLast Param.span r
  bindings : (binding bindings).EndsOnLast Binding.span r
  innerBindings : ∀ depth, (binding (bindingsAt depth)).EndsOnLast Binding.span r
  iris : iri.EndsOnLast Iri.span r
  imports : moduleImport.EndsOnLast ModuleImport.span r
  aliases : aliasDecl.EndsOnLast Alias.span r
  properties : propertyDecl.EndsOnLast PropertyDecl.span r
  functions : functionDecl.EndsOnLast FunctionDecl.span r
  classes : ∀ c s, classDef r = .ok (c, true) s → r.RunsTo s c.span

theorem PositionInvariant.exists_closed {Q : Reader → Prop} (h : PositionInvariant r)
    (hx : classDef.Ensures r (fun x s => x.2 = true ∧ Q s) fun _ => False) :
    ∃ c s, classDef r = .ok (c, true) s ∧ Q s ∧ r.RunsTo s c.span := by
  obtain ⟨⟨c, closed⟩, s, e, rfl, hq⟩ := hx.exists_ok
  exact ⟨c, s, e, hq, h.classes c s e⟩

/-- Every reader that the tokens of a source lead to, by whatever rules and recoveries, has the invariant. -/
theorem positionInvariant_of_leads {file source : String} {limit : Nat}
    (hr : (Reader.ofSource file source limit).Leads r) : PositionInvariant r := by
  have hp : r.Placed source.toList := hr.placed (Reader.ofSource_placed file source limit)
  exact {
    exprs := places_expr.endsOnLast hp
    innerExprs := fun depth level => (places_exprAt depth level).endsOnLast hp
    stmts := (places_stmt places_block).endsOnLast hp
    innerStmts := fun depth => (places_stmt (places_blockAt depth)).endsOnLast hp
    blocks := places_block.endsOnLast hp
    innerBlocks := fun depth => (places_blockAt depth).endsOnLast hp
    params := places_param.endsOnLast hp
    bindings := (places_binding fun _ => ensures_bindings).endsOnLast hp
    innerBindings := fun depth => (places_binding (ensures_bindingsAt depth)).endsOnLast hp
    iris := places_iri.endsOnLast hp
    imports := places_moduleImport.endsOnLast hp
    aliases := places_aliasDecl.endsOnLast hp
    properties := places_propertyDecl.endsOnLast hp
    functions := places_functionDecl.endsOnLast hp
    classes := by
      -- an unclosed class stops with its last member, in front of the current token, and is left out here
      intro c s e
      have hc : Extent source.toList r s c.span [c.outline] := (ensures_classDef hp).ok e
      exact hc.runsTo hp }

/-- A source behind some of its tokens. It has an empty fragment, a class with a stray parenthesis, a list type that
`>=` closes, a method with a semicolon behind it, and blocks that the end of the input cuts off. -/
def hardEnds (taken : Nat) : Reader :=
  .advanceBy taken (.ofSource "a.sem" ("alias n as s://h/#; class N \x7b ) m(x: T \x7b y: p | y + 1 \x7d): R " ++
    "\x7b v: list<T>= [1]; \x7d; \x7d f(): R \x7b while c \x7b"))

theorem positionInvariant_of_leads_hardEnds :
    (∃ i s, iri (hardEnds 3) = .ok i s ∧ s.rest = (hardEnds 9).rest ∧ (hardEnds 3).RunsTo s i.span) ∧
    (∃ c s, classDef (hardEnds 11) = .ok (c, true) s ∧ s.rest = (hardEnds 45).rest ∧ (hardEnds 11).RunsTo s c.span) ∧
    (∃ f s, functionDecl (hardEnds 15) = .ok f s ∧ s.rest = (hardEnds 44).rest ∧ (hardEnds 15).RunsTo s f.span) ∧
    (∃ p s, param (hardEnds 17) = .ok p s ∧ s.rest = (hardEnds 28).rest ∧ (hardEnds 17).RunsTo s p.span) ∧
    (∃ t s, stmt block (hardEnds 33) = .ok t s ∧ s.rest = (hardEnds 41).rest ∧ (hardEnds 33).RunsTo s t.span) ∧
    ∃ b s, block (hardEnds 51) = .ok b s ∧ s.rest = [] ∧ (hardEnds 51).RunsTo s b.span := by
  have h (taken : Nat) : PositionInvariant (hardEnds taken) := positionInvariant_of_leads (.advanceBy taken _)
  -- that the rules succeed is decided at once, so that the source is scanned only once
  refine .imp (h 3).iris.exists_ok (.imp (h 11).exists_closed (.imp (h 15).functions.exists_ok
    (.imp (h 17).params.exists_ok (.imp (h 33).stmts.exists_ok (h 51).blocks.exists_ok)))) ?_
  decide +kernel

end Rule
end SemFront
