import FoldedIni.Display.Markup
import FoldedIni.Display.Panel
import FoldedIni.Display.Table

/-!
# Screens

A screen is a console that lays out what is handed to it: a table of rows below a
title, a text in a panel below a title, as it stands or with its lines numbered, and
a message. How wide it is, where it wraps and what it cuts off is known to the screen.
-/

set_option autoImplicit false

namespace FoldedIni.Display

/-- How texts are laid out in lines. -/
structure Screen extends Markup.Console where
  table : (title : List Char) → List Row → List (List Char)
  panel : (title content : List Char) → List (List Char)
  listing : (title content : List Char) → List (List Char)
  message : List Char → List (List Char)
  /-- What greets a user who asks for nothing. -/
  banner : (title content : List Char) → List (List Char)

/-- A screen of a fixed width, on which no cell and no line of a panel is too long. -/
def Screen.simple : Screen where
  toConsole := .simple
  table := Display.table
  panel title content := Display.panel pageWidth title [content]
  listing title content := Display.panel pageWidth title (numbered content)
  message := wrap pageWidth
  banner := fittedPanel

end FoldedIni.Display
