/-!
# Texts of files

A text is kept in a file as its octets; every break of lines is read as a line feed.

* `FileText.unifyBreaks` turns carriage returns, alone or before a line feed, into line feeds
  (`unifyBreaks_no_return`).
-/

namespace RegistryBundle.FileText

/-- The text with a line feed for every break of lines. -/
def unifyBreaks : List Char → List Char
  | [] => []
  | '\r' :: '\n' :: rest => '\n' :: unifyBreaks rest
  | c :: rest => (if c = '\r' then '\n' else c) :: unifyBreaks rest

/-- The text of octets, if they encode one. -/
def ofBytes? (b : ByteArray) : Option String :=
  (String.fromUTF8? b).map fun s => String.ofList (unifyBreaks s.toList)

/-- No carriage return is left. -/
theorem unifyBreaks_no_return (cs : List Char) : '\r' ∉ unifyBreaks cs := by
  fun_induction unifyBreaks cs with
  | case1 => simp
  | case2 rest ih => simpa using ih
  | case3 c rest _ ih =>
    by_cases h : c = '\r'
    · simpa [h] using ih
    · simpa [h, Ne.symm h] using ih

end RegistryBundle.FileText
