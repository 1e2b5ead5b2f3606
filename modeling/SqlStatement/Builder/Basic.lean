import SqlStatement.Builder.Compile

/-!
# Statement builders

A `Builder` holds a draft, the number for the next placeholder, and the statement as it was last
rendered. Every change to the draft drops the rendered statement; rendering uses up placeholder
numbers also when it fails.
-/

namespace SqlStatement

structure Statement where
  sql : String
  params : Params
  deriving DecidableEq, Repr, Inhabited

structure Builder where
  draft : Draft := {}
  /-- the number at which the search for the next placeholder starts -/
  next : Nat := 0
  rendered : Option Statement := none
  deriving DecidableEq, Repr, Inhabited

namespace Builder

def edit (b : Builder) (f : Draft → Draft) : Builder :=
  { b with draft := f b.draft, rendered := none }

/-- A draft's statement when the search for placeholders starts at `next`, and the number after. -/
def renderDraft (d : Draft) (next : Nat) : Except Error Statement × Nat :=
  let (result, p) := d.compile.run ⟨next, d.criteria.boundParams⟩
  (result.map fun sql => ⟨sql, p.params⟩, p.next)

def render (b : Builder) : Except Error Statement × Builder :=
  match renderDraft b.draft b.next with
  | (.ok s, next) => (.ok s, { b with next, rendered := some s })
  | (.error e, next) => (.error e, { b with next })

def toSql (b : Builder) : Except Error Statement × Builder :=
  match b.rendered with
  | some s => (.ok s, b)
  | none => b.render

def sqlText (b : Builder) : Except Error String × Builder := (b.toSql.1.map (·.sql), b.toSql.2)

def renderedParams (b : Builder) : Except Error Params × Builder :=
  (b.toSql.1.map (·.params), b.toSql.2)

/-! ## Renderings -/

/-- A rendering keeps the statement if it succeeds, and takes over the next number in any case. -/
theorem render_eq (b : Builder) :
    b.render = ((renderDraft b.draft b.next).1,
      ⟨b.draft, (renderDraft b.draft b.next).2,
        (renderDraft b.draft b.next).1.toOption.or b.rendered⟩) := by
  unfold render
  cases renderDraft b.draft b.next with
  | mk result next =>
    cases result with
    | ok s => rfl
    | error e => rfl

theorem toSql_of_some {b : Builder} {s : Statement} (h : b.rendered = some s) :
    b.toSql = (.ok s, b) := by
  unfold toSql
  rw [h]

theorem toSql_of_none {b : Builder} (h : b.rendered = none) : b.toSql = b.render := by
  unfold toSql
  rw [h]

end Builder

end SqlStatement
