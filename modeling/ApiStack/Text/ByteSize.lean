namespace ApiStack.Text

def byteSize (cs : List Char) : Nat := cs.foldl (fun n c => n + c.utf8Size) 0

end ApiStack.Text
