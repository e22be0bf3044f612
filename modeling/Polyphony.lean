import Polyphony.Main
import Polyphony.Timeline.Transport
import Polyphony.Binary64.Bits
import Polyphony.Proofs.Score.Derivation
import Polyphony.Proofs.Pushes
import Polyphony.Proofs.Timeline.Delivery
import Polyphony.Proofs.Score.Document
import Polyphony.Proofs.Score.Image
import Polyphony.Proofs.Binary64.Sign
import Polyphony.Proofs.Timeline.Placement
import Polyphony.Proofs.Rhythm
import Polyphony.Proofs.Concatenation
import Polyphony.Proofs.Timeline.Audible
import Polyphony.Proofs.NoteCount
import Polyphony.Proofs.Scoping
import Polyphony.Proofs.Timekeeping
import Polyphony.Proofs.Score.Location
import Polyphony.Proofs.Score.Refusal
import Polyphony.Proofs.Binary64.Accuracy
import Polyphony.Proofs.Timeline.Together
import Polyphony.Proofs.InStep
import Polyphony.Proofs.Timeline.Exchange
import Polyphony.Proofs.Timeline.ChordOrder
import Polyphony.Proofs.Timeline.VoiceOrder
import Polyphony.Proofs.Timeline.FirstFault
import Polyphony.Proofs.Score.Layout
import Polyphony.Proofs.Decimal.Numeral
import Polyphony.Proofs.Timeline.Silence
import Polyphony.Proofs.Silence
import Polyphony.Proofs.Binary64.Nearest
import Polyphony.Proofs.Binary64.Factor
import Polyphony.Proofs.Timeline.Halving
import Polyphony.Proofs.Timeline.Length
import Polyphony.Proofs.Playable
import Polyphony.Proofs.Binary64.Product
import Polyphony.Proofs.Adjustment
import Polyphony.Proofs.Layout
import Polyphony.Proofs.Score.ByteCursor
import Polyphony.Proofs.Score.Tree
