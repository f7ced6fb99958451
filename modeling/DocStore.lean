import DocStore.Config.Json
import DocStore.Config.Layers
import DocStore.Json.Data
import DocStore.Proofs.Store.Parity
import DocStore.Store.Cursor
import DocStore.Store.Shown
import DocStore.Proofs.Files.Replacement
import DocStore.Proofs.Nesting
import DocStore.Proofs.Paths
import DocStore.Proofs.Legible
import DocStore.Proofs.Store.Durability
import DocStore.Proofs.Store.Rereading
import DocStore.Proofs.Increments
import DocStore.Proofs.Store.Increments
import DocStore.Proofs.Store.Batches
import DocStore.Proofs.Files.Frame
import DocStore.Proofs.Files.Companions
import DocStore.Proofs.Files.Reopening
import DocStore.Proofs.Store.FailedWrites
import DocStore.Proofs.Store.LastClose
import DocStore.Proofs.Store.Separation
import DocStore.Proofs.Resolution
import DocStore.Proofs.Codec
import DocStore.Proofs.Store.KeyedBatches
import DocStore.Proofs.Store.FirstMatch
import DocStore.Proofs.UpdateExpression
import DocStore.Proofs.Accumulation
import DocStore.Proofs.Store.Repetition
import DocStore.Proofs.Store.Creations
import DocStore.Proofs.Store.KeyedReads
import DocStore.Proofs.Store.Deletions
import DocStore.Proofs.Store.MatchedRows
import DocStore.Proofs.FilterExpression
import DocStore.Proofs.WriteModel
import DocStore.Proofs.Json.Readings
import DocStore.Proofs.Config.Text
import DocStore.Proofs.Config.Layers
