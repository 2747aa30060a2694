import Redex.Tag

/-!
# Tagging

Tagging turns a term as written into a tagged term in which no two binders share an identity.
Every binder gets a tag of its own, every free name one tag for the whole term, and an occurrence
the tag of the innermost binder of its name or, if there is none, the tag of the free name. A
binder takes its tag before anything below it does.
-/

set_option autoImplicit false

namespace Redex

/-- The state of a tagging: where tags come from, and the tags of the free names met so far. -/
structure Tagging where
  gen : Generator
  free : List (Name × Tag)

/-- Tag a term under binders whose names have the tags `bound`, the innermost first. -/
def Term.tagIn (bound : List (Name × Tag)) : Term Name → Tagging → Term Tagged × Tagging
  | .var x, state =>
    match (bound.lookup x).or (state.free.lookup x) with
    | some tag => (.var ⟨x, tag⟩, state)
    | none =>
      let (tag, gen) := state.gen.next
      (.var ⟨x, tag⟩, ⟨gen, (x, tag) :: state.free⟩)
  | .app fn arg, state =>
    let (fn, state) := fn.tagIn bound state
    let (arg, state) := arg.tagIn bound state
    (.app fn arg, state)
  | .abs x body, state =>
    let (tag, gen) := state.gen.next
    let (body, state) := body.tagIn ((x, tag) :: bound) { state with gen }
    (.abs ⟨x, tag⟩ body, state)
  | .pi x dom cod, state =>
    let (tag, gen) := state.gen.next
    let (dom, state) := dom.tagIn bound { state with gen }
    let (cod, state) := cod.tagIn ((x, tag) :: bound) state
    (.pi ⟨x, tag⟩ dom cod, state)
  | .sort u, state => (.sort u, state)

/-- Tag a term with tags of `gen`; the second component is the generator afterwards. -/
def Term.tagWith (t : Term Name) (gen : Generator) : Term Tagged × Generator :=
  let (tagged, state) := t.tagIn [] ⟨gen, []⟩
  (tagged, state.gen)

/-- Tag a term with the tags from one on. -/
def Term.tag (t : Term Name) : Term Tagged := (t.tagWith .start).1

end Redex
