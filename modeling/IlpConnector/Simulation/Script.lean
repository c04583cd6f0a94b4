import IlpConnector.Link.Error
import IlpConnector.Packet.Basic

/-!
# Scripted neighbours

A scripted neighbour does what its script says: each time it is asked to connect, to disconnect or
to answer a packet, it takes the next entry of a list.
-/

namespace IlpConnector

inductive ScriptedAnswer where
  | reply (r : Reply)
  /-- Fulfills with zeros and gives the packet's data back. -/
  | echo
  | fail (e : LinkError)
  /-- Never answers. -/
  | hang
  /-- Breaks down. -/
  | crash

/-- An answer after some milliseconds. -/
structure ScriptedAction where
  delay : Nat := 0
  answer : ScriptedAnswer

namespace ScriptedAction

/-- Fulfills with zeros at once. -/
def usual : ScriptedAction := { answer := .reply (.fulfilled ⟨Octets.replicate 32 0, []⟩) }

end ScriptedAction

structure Script where
  /-- How the attempts to connect end; a connection that is not listed succeeds. -/
  connects : List (Option LinkError) := []
  disconnects : List (Option LinkError) := []
  /-- Milliseconds that connecting and disconnecting take. -/
  delay : Nat := 0
  answers : List ScriptedAction := []
  /-- The answer when the list is at its end. -/
  otherwise : ScriptedAction := .usual

/-- A scripted neighbour, with what has happened to it so far. -/
structure ScriptedPeer where
  script : Script
  /-- How often it was asked to connect and to disconnect. -/
  connects : Nat := 0
  disconnects : Nat := 0
  received : List Prepare := []
  /-- How many packets it has answered. -/
  answered : Nat := 0

namespace ScriptedPeer

/-- Is asked to connect, and tells how that is going to end. -/
def takeConnect (p : ScriptedPeer) : Option LinkError × ScriptedPeer :=
  (p.script.connects.head?.join,
    { p with script.connects := p.script.connects.tail, connects := p.connects + 1 })

/-- Is asked to disconnect, and tells how that is going to end. -/
def takeDisconnect (p : ScriptedPeer) : Option LinkError × ScriptedPeer :=
  (p.script.disconnects.head?.join,
    { p with script.disconnects := p.script.disconnects.tail, disconnects := p.disconnects + 1 })

/-- Receives a packet, and tells what it is going to do about it. -/
def takePacket (p : ScriptedPeer) (packet : Prepare) : ScriptedAction × ScriptedPeer :=
  (p.script.answers.head?.getD p.script.otherwise,
    { p with
      script.answers := p.script.answers.tail
      received := p.received ++ [packet] })

end ScriptedPeer

namespace ScriptedAnswer

/-- What a breakdown says. -/
def crashMessage : String := "forwarder blew up"

end ScriptedAnswer

end IlpConnector
