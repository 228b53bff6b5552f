namespace CilListing

/-- A text over several lines, with `indent` in front of each line but the first. -/
def hangLines (indent text : String) : String :=
  String.ofList (text.toList.flatMap fun char =>
    if char = '\n' then char :: indent.toList else [char])

end CilListing
