import LineStore.Client.Link

/-!
A peer that answers from a script: each line with the next of a list of replies, whatever they are.

It ends its side, but goes on reading, after a reply without a line feed, when it has no reply left, and
when it is asked to disconnect.
-/

namespace LineStore.Client

/-- A scripted peer in the middle of its script. -/
structure ScriptedPeer where
  replies : List Bytes
  /-- The lines that were received, oldest first. -/
  seen : List Bytes := []
  ended : Bool := false
deriving DecidableEq, Repr

def ScriptedPeer.respond : Peer ScriptedPeer := fun line peer =>
  let peer := { peer with seen := peer.seen ++ [line] }
  if peer.ended then ([], peer)
  else if line = [lineFeed] then ([], { peer with ended := true })
  else
    match peer.replies with
    | [] => ([], { peer with ended := true })
    | reply :: replies => (reply, { peer with replies, ended := lineFeed ∉ reply })

end LineStore.Client
