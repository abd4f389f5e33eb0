/-!
# Text.Newline

Line ends of text files: a carriage return, alone or before a line feed, is read as a line feed.
-/

namespace ChangeImpact.Text

def normalizeNewlines : List Char → List Char
  | [] => []
  | '\r' :: '\n' :: cs => '\n' :: normalizeNewlines cs
  | '\r' :: cs => '\n' :: normalizeNewlines cs
  | c :: cs => c :: normalizeNewlines cs

end ChangeImpact.Text
