import ScriptBridge.Animation.Recording
import ScriptBridge.Animation.Stored
import ScriptBridge.Config.Stored
import ScriptBridge.Geometry.Stored
import ScriptBridge.Host.Substitution
import ScriptBridge.Json.Equality
import ScriptBridge.Proofs.Decoding
import ScriptBridge.Proofs.Decoration
import ScriptBridge.Proofs.Delivery
import ScriptBridge.Proofs.JsonViews
import ScriptBridge.Proofs.LatePosts
import ScriptBridge.Proofs.ObtainedExceptions
import ScriptBridge.Proofs.OrderedObject
import ScriptBridge.Proofs.RegistryHistory
import ScriptBridge.Proofs.RendererAgreement
import ScriptBridge.Proofs.Spawning
import ScriptBridge.Proofs.StoredGeometry
import ScriptBridge.Proofs.ValueEquality
import ScriptBridge.Routine
import ScriptBridge.RuntimeId.Stored
import ScriptBridge.Session
import ScriptBridge.Thread.Client
import ScriptBridge.Thread.Spawn
import ScriptBridge.Value.Equality
import ScriptBridge.Value.JsonView
