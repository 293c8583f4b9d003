/-
  SatReplay/Settings.lean
  =======================
  **What a player asks for**: who they are, which solver to use, and how hard the
  challenge shall be.  The canonical text of the settings is hashed, and the hash
  and a nonce make the seed of the challenge, so a seed is bound to both.
-/
import SatReplay.Hash.Blake3
import SatReplay.Json.Domain

namespace SatReplay

open Json

structure Settings where
  playerId : String
  algorithmId : String
  /-- As written; `Settings.parsedDifficulty` judges it. -/
  difficulty : List Int32
deriving DecidableEq, Repr

namespace Settings

def toValue (s : Settings) : Value :=
  .object
    [("player_id", .string s.playerId), ("algorithm_id", .string s.algorithmId),
      ("difficulty", .array (s.difficulty.map fun n => Value.ofInt n.toInt))]

/-- The seed of the challenge for a nonce. -/
def seed (s : Settings) (nonce : UInt32) : Int32 :=
  (Blake3.textWord s.toValue.canonical ^^^ nonce).toInt32

def parsedDifficulty (s : Settings) : Except Failure Difficulty :=
  (Difficulty.ofList? s.difficulty).mapError Failure.invalidDifficulty

/-- The fields of settings that have been read. -/
structure Draft where
  playerId : Option String
  algorithmId : Option String
  difficulty : Option (List Int32)

def Draft.complete (d : Draft) : Except String Settings := do
  let playerId ← required "player_id" d.playerId
  let algorithmId ← required "algorithm_id" d.algorithmId
  let difficulty ← required "difficulty" d.difficulty
  return ⟨playerId, algorithmId, difficulty⟩

def record : Record Draft Settings where
  name := "BenchmarkSettings"
  blank := ⟨none, none, none⟩
  complete := Draft.complete
  fields :=
    [.of "player_id" Reader.string (·.playerId) fun a d => { d with playerId := some a },
     .of "algorithm_id" Reader.string (·.algorithmId) fun a d => { d with algorithmId := some a },
     .of "difficulty" (Reader.list Reader.int32) (·.difficulty)
       fun a d => { d with difficulty := some a }]

def reader : Reader Settings := record.reader

end Settings

end SatReplay
