import TenantSchema.Proofs.FieldAccess
import TenantSchema.Proofs.Isolation
import TenantSchema.Proofs.RecencyList
import TenantSchema.Proofs.SlotIntegrity
import TenantSchema.Proofs.StaleRecords
import TenantSchema.Session.Liveness
import TenantSchema.Spec.Builder
import TenantSchema.Spec.Printer
import TenantSchema.Store.Describe
import TenantSchema.Version
import TenantSchema.Wire.Json
import TenantSchema.Proofs.FieldShelf
import TenantSchema.Proofs.BaseResolution
import TenantSchema.Proofs.WireRoundTrip
import TenantSchema.Proofs.GenericForm
import TenantSchema.Proofs.CallEffects
import TenantSchema.Proofs.Redecoding
import TenantSchema.Proofs.InheritedKeys
import TenantSchema.Proofs.TimestampCounts
import TenantSchema.Proofs.CompactDurations
import TenantSchema.Proofs.BaseProgress
import TenantSchema.Proofs.ValidOnce
import TenantSchema.Proofs.CacheIndex
import TenantSchema.Proofs.SpecRoundTrip
import TenantSchema.Proofs.CounterBalance
import TenantSchema.Proofs.DurationOverflow
import TenantSchema.Proofs.IntegerText
import TenantSchema.Proofs.Clocks
import TenantSchema.Proofs.BytesOnWire
import TenantSchema.Proofs.LookupsOnWire
import TenantSchema.Proofs.TimestampsOnWire
import TenantSchema.Proofs.SecondsAsText
import TenantSchema.Proofs.FloatNotations
import TenantSchema.Proofs.ScalarReferences
import TenantSchema.Proofs.LowerCase
import TenantSchema.Proofs.RegisteredReads
import TenantSchema.Proofs.RecentUses
import TenantSchema.Proofs.Invalidation
import TenantSchema.Proofs.ResolvedExtensions
import TenantSchema.Proofs.RecreatedExtensions
import TenantSchema.Proofs.TimestampOrder
import TenantSchema.Proofs.CompactLiterals
import TenantSchema.Proofs.IntervalLiterals
import TenantSchema.Proofs.DatasetRules
import TenantSchema.Proofs.IntegerSources
import TenantSchema.Proofs.AcceptedReferences
import TenantSchema.Proofs.SharedTargets
import TenantSchema.Proofs.RecordMaps
import TenantSchema.Proofs.ViolationCodes
import TenantSchema.Proofs.ListElements
import TenantSchema.Proofs.DecimalAmounts
import TenantSchema.Proofs.FieldFlags
