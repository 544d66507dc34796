import LineStore.Network.Basic
import LineStore.Server.Settings

/-!
Listening: from the text of an address to the number under which clients find the server.
-/

namespace LineStore.Server

/-- Listens on an address, and tells the number of the machine that was taken for it. -/
def listen (network : Network) (text : String) : Except Failure Network.Machine := do
  let address ← (Network.Address.ofText? text).mapError .network
  let machine ← (network.locate address.host).mapError .network
  if network.isOwn machine then return machine else throw (.unbindable text)

/-- Listens as the settings say, once they have been checked. -/
def listenAs (network : Network) (settings : Settings) : Except Failure Network.Machine := do
  settings.check
  listen network settings.address

end LineStore.Server
