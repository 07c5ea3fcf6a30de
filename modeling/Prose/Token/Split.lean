import Prose.Token.Basic

/- Cutting a run of tokens at separators. -/
namespace Prose.Token

/-- The non-empty runs of tokens between separators of a kind. -/
def splitAt (separator : Kind) : List Token → List (List Token)
  | [] => []
  | t :: rest =>
    if t.kind == separator then splitAt separator rest
    else match rest, splitAt separator rest with
      | next :: _, run :: runs =>
        if next.kind == separator then [t] :: run :: runs else (t :: run) :: runs
      | _, runs => [t] :: runs

end Prose.Token
