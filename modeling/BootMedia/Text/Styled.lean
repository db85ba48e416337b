import BootMedia.Text.Visible

namespace BootMedia.Text

inductive Style where
  | plain
  | heading
  | literal
  | error
  | invalid
  | valid
deriving DecidableEq, Repr

namespace Style

def opening : Style → String
  | plain => ""
  | heading => "\x1b[1m\x1b[4m"
  | literal => "\x1b[1m"
  | error => "\x1b[1m\x1b[31m"
  | invalid => "\x1b[33m"
  | valid => "\x1b[32m"

def closing : String := "\x1b[0m"

end Style

structure Span where
  style : Style
  text : String
deriving DecidableEq, Repr

namespace Span

/-- Without styles, the sequences that a piece itself holds are taken out. -/
def render (isStyled : Bool) (s : Span) : String :=
  if !isStyled then visible s.text
  else if s.style = .plain then s.text
  else s.style.opening ++ s.text ++ Style.closing

end Span

abbrev Styled := List Span

def styled (style : Style) (text : String) : Styled := [⟨style, text⟩]

def plain (text : String) : Styled := styled .plain text

def Styled.render (isStyled : Bool) (t : Styled) : String :=
  String.join (t.map (·.render isStyled))

end BootMedia.Text
